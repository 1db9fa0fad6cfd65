/-
Keys in two spellings, and what look-ups see of them.

Five fields of a payload can be given under two names, a written type as `rawType` or as `raw_type`. With some keys in the
other spelling, an object has the same members in the same order; a key with one spelling is found as before, and a field
that is looked for under both of its names is found with the same value.

- `spellings`, `respelledKey`: the keys with two spellings, and a key in the other one;
- `eq_of_respelledKey_eq`: keys become one only where both spellings of a key are there;
- `Members.Respelled`: the same members with some keys respelled, and the items of some lists changed;
- `Respelled.get?_eq`, `Respelled.get?_cases`, `Respelled.given?_eq`, `Respelled.rel_items?`: what is found in them;
- `Members.Flat`, `Members.get?_top`: members without a `data` object, and what is left of them at the top;
- `defaultField_eq_ok_congr`: a field that is given alike is read alike.
-/
import Classwright.Proofs.Validation

namespace Classwright

/-! ## Keys respelled -/

/-- the keys that have another spelling, with that spelling -/
def spellings : List (String × String) :=
  [("rawType", "raw_type"), ("isAssociationClass", "is_association_class"), ("sourceCardinality", "source_cardinality"),
    ("targetCardinality", "target_cardinality"), ("associationClassId", "association_class_id")]

/-- a key, in its other spelling where that is chosen -/
def respelledKey (chosen : String → Bool) (key : String) : String :=
  match Table.get? spellings key with
  | some other => if chosen key then other else key
  | none => key

section

variable {chosen : String → Bool} {k key : String} {p : String × String}

theorem get?_spellings (hp : p ∈ spellings) : Table.get? spellings p.1 = some p.2 :=
  Table.get?_of_mem (by decide) hp

theorem mem_spellings_of_get? {other : String} (h : Table.get? spellings k = some other) : (k, other) ∈ spellings :=
  Table.mem_of_get? h

theorem ne_of_get?_spellings (hp : p ∈ spellings) (hnone : Table.get? spellings k = none) : k ≠ p.1 := by
  rintro rfl
  rw [get?_spellings hp] at hnone
  cases hnone

/-- no key is the other spelling of one -/
theorem second_ne_first {p q : String × String} (hp : p ∈ spellings) (hq : q ∈ spellings) : p.2 ≠ q.1 := by
  have hall : ∀ p ∈ spellings, ∀ q ∈ spellings, p.2 ≠ q.1 := by decide
  exact hall p hp q hq

theorem eq_of_second_eq {p q : String × String} (hp : p ∈ spellings) (hq : q ∈ spellings) (h : p.2 = q.2) : p = q := by
  have hall : ∀ p ∈ spellings, ∀ q ∈ spellings, p.2 = q.2 → p = q := by decide
  exact hall p hp q hq h

/-- a key that has no other spelling, and is none -/
def OneSpelling (key : String) : Prop := ∀ p ∈ spellings, p.1 ≠ key ∧ p.2 ≠ key

instance (key : String) : Decidable (OneSpelling key) := inferInstanceAs (Decidable (∀ p ∈ spellings, _))

theorem respelledKey_eq_single_iff (h : OneSpelling key) : respelledKey chosen k = key ↔ k = key := by
  unfold respelledKey
  split
  · next other hother =>
    obtain ⟨hfirst, hsecond⟩ := h _ (mem_spellings_of_get? hother)
    split_ifs
    · exact iff_of_false hsecond hfirst
    · exact Iff.rfl
  · exact Iff.rfl

theorem respelledKey_eq_first_iff (hp : p ∈ spellings) : respelledKey chosen k = p.1 ↔ k = p.1 ∧ chosen k = false := by
  unfold respelledKey
  split
  · next other hother =>
    have hne : other ≠ p.1 := second_ne_first (mem_spellings_of_get? hother) hp
    split_ifs with hchosen <;> simp [hchosen, hne]
  · next hnone =>
    have hne := ne_of_get?_spellings hp hnone
    simp [hne]

theorem respelledKey_eq_second_iff (hp : p ∈ spellings) :
    respelledKey chosen k = p.2 ↔ k = p.2 ∨ k = p.1 ∧ chosen k = true := by
  unfold respelledKey
  split
  · next other hother =>
    have hmem := mem_spellings_of_get? hother
    have hne : k ≠ p.2 := (second_ne_first hp hmem).symm
    have hother : other = p.2 ↔ k = p.1 := by
      constructor
      · intro heq
        exact congrArg Prod.fst (eq_of_second_eq hmem hp heq)
      · rintro rfl
        exact Option.some.inj (hother.symm.trans (get?_spellings hp))
    split_ifs with hchosen <;> simp [hchosen, hne, hother]
  · next hnone =>
    have hne := ne_of_get?_spellings hp hnone
    simp [hne]

/-- keys become one only where both spellings of a key are there -/
theorem eq_of_respelledKey_eq {k' : String} (hleft : (k, k') ∉ spellings) (hright : (k', k) ∉ spellings)
    (h : respelledKey chosen k = respelledKey chosen k') : k = k' := by
  by_cases hsingle : OneSpelling (respelledKey chosen k')
  · rw [respelledKey_eq_single_iff hsingle] at h
    rw [h]
    exact ((respelledKey_eq_single_iff hsingle).1 rfl).symm
  · obtain ⟨p, hp, hkey⟩ : ∃ p ∈ spellings, respelledKey chosen k' = p.1 ∨ respelledKey chosen k' = p.2 := by
      unfold OneSpelling at hsingle
      push Not at hsingle
      obtain ⟨p, hp, hkey⟩ := hsingle
      exact ⟨p, hp, (em (p.1 = _)).imp Eq.symm fun hne => (hkey hne).symm⟩
    rcases hkey with hkey | hkey <;> rw [hkey] at h
    · rw [respelledKey_eq_first_iff hp] at h hkey
      rw [h.1, hkey.1]
    · rw [respelledKey_eq_second_iff hp] at h hkey
      rcases h with rfl | ⟨rfl, -⟩ <;> rcases hkey with rfl | ⟨rfl, -⟩
      · rfl
      · exact absurd hp hright
      · exact absurd hp hleft
      · rfl

end

/-! ## Members respelled -/

/-- lists whose items are related one by one, or one value that is no list -/
inductive Json.ListsBy (E : Json → Json → Prop) : Json → Json → Prop where
  | lists {items items' : List Json} (h : List.Forall₂ E items items') : ListsBy E (.arr items) (.arr items')
  | other {j : Json} (h : ∀ items, j ≠ .arr items) : ListsBy E j j

/-- objects whose members are related, or one value -/
inductive Json.ObjectsBy (S : Members → Members → Prop) : Json → Json → Prop where
  | objects {ms ms' : Members} (h : S ms ms') : ObjectsBy S (.obj ms) (.obj ms')
  | same (j : Json) : ObjectsBy S j j

namespace Members

/-- the value under a key is a list with related items where the key is among those given, else it stays as it is -/
def Held (lists : List (String × (Json → Json → Prop))) (key : String) (v v' : Json) : Prop :=
  match Table.get? lists key with
  | some E => Json.ListsBy E v v'
  | none => v = v'

/-- no key is there in both spellings -/
def SpelledOnce (ms : Members) : Prop := ∀ p ∈ spellings, ms.get? p.1 = none ∨ ms.get? p.2 = none

instance (ms : Members) : Decidable ms.SpelledOnce := inferInstanceAs (Decidable (∀ p ∈ spellings, _ ∨ _))

/-- the same members in their order, some keys in the other spelling, and the items of some lists changed -/
structure Respelled (lists : List (String × (Json → Json → Prop))) (ms ms' : Members) : Prop where
  distinct : (ms.map Prod.fst).Nodup
  once : ms.SpelledOnce
  renamed : ∃ chosen, List.Forall₂ (fun m m' => m'.1 = respelledKey chosen m.1 ∧ Held lists m.1 m.2 m'.2) ms ms'

/-- nothing is kept in a `data` object -/
def Flat (ms : Members) : Prop := ∀ inner, ms.get? "data" ≠ some (.obj inner)

variable {lists : List (String × (Json → Json → Prop))} {ms ms' : Members} {chosen : String → Bool} {key key' : String}

/-- a key is found under its new name, when no other key there gets that name -/
theorem rel_get? {R : String → Json → Json → Prop}
    (h : List.Forall₂ (fun m m' => m'.1 = respelledKey chosen m.1 ∧ R m.1 m.2 m'.2) ms ms')
    (hkey : ∀ m ∈ ms, respelledKey chosen m.1 = key' ↔ m.1 = key) : Option.Rel (R key) (ms.get? key) (ms'.get? key') := by
  induction h with
  | nil => exact .none
  | @cons m m' rest rest' hm _ ih =>
    obtain ⟨hname, hvalue⟩ := hm
    have hhere : m'.1 = key' ↔ m.1 = key := by rw [hname]; exact hkey m List.mem_cons_self
    rw [get?, get?]
    by_cases heq : m.1 = key
    · rw [if_pos heq, if_pos (hhere.2 heq)]
      exact .some (heq ▸ hvalue)
    · rw [if_neg heq, if_neg (mt hhere.1 heq)]
      exact ih fun n hn => hkey n (List.mem_cons_of_mem m hn)

theorem ne_of_get?_eq_none (h : ms.get? key = none) {m : String × Json} (hm : m ∈ ms) : m.1 ≠ key := by
  rintro rfl
  exact get?_eq_none_iff.1 h (List.mem_map_of_mem hm)

namespace Respelled

theorem rel_get?_single (h : Respelled lists ms ms') (hsingle : OneSpelling key) :
    Option.Rel (Held lists key) (ms.get? key) (ms'.get? key) := by
  obtain ⟨chosen, hrenamed⟩ := h.renamed
  exact rel_get? hrenamed fun m _ => respelledKey_eq_single_iff hsingle

theorem eq_of_rel_held (hheld : Table.get? lists key = none) {a b : Option Json} (h : Option.Rel (Held lists key) a b) :
    a = b := by
  cases h with
  | none => rfl
  | some hv =>
    unfold Held at hv
    rw [hheld] at hv
    rw [hv]

/-- a key with one spelling is found as it was -/
theorem get?_eq (h : Respelled lists ms ms') (hsingle : OneSpelling key) (hheld : Table.get? lists key = none) :
    ms.get? key = ms'.get? key :=
  eq_of_rel_held hheld (h.rel_get?_single hsingle)

/-- a key with two spellings is left as it was, or it is found in the other spelling only -/
theorem get?_cases (h : Respelled lists ms ms') {p : String × String} (hp : p ∈ spellings)
    (hfirst : Table.get? lists p.1 = none) (hsecond : Table.get? lists p.2 = none) :
    ms'.get? p.1 = ms.get? p.1 ∧ ms'.get? p.2 = ms.get? p.2 ∨
      ms.get? p.2 = none ∧ ms'.get? p.1 = none ∧ ms'.get? p.2 = ms.get? p.1 := by
  obtain ⟨chosen, hrenamed⟩ := h.renamed
  have hfound : ∀ {key key' : String}, Table.get? lists key = none →
      (∀ m ∈ ms, respelledKey chosen m.1 = key' ↔ m.1 = key) → ms'.get? key' = ms.get? key :=
    fun hheld hkey => (eq_of_rel_held hheld (rel_get? hrenamed hkey)).symm
  by_cases hleft : chosen p.1 = false ∨ ms.get? p.1 = none
  · left
    have hkept : ∀ m ∈ ms, m.1 = p.1 → chosen m.1 = false := by
      rintro m hm heq
      rcases hleft with hchosen | hnone
      · rwa [heq]
      · exact absurd heq (ne_of_get?_eq_none hnone hm)
    refine ⟨hfound hfirst fun m hm => ?_, hfound hsecond fun m hm => ?_⟩
    · rw [respelledKey_eq_first_iff hp]
      exact and_iff_left_of_imp (hkept m hm)
    · rw [respelledKey_eq_second_iff hp]
      exact or_iff_left fun ⟨heq, hchosen⟩ => by rw [hkept m hm heq] at hchosen; cases hchosen
  · right
    obtain ⟨hchosen, hthere⟩ := not_or.1 hleft
    have hnone : ms.get? p.2 = none := (h.once p hp).resolve_left hthere
    refine ⟨hnone, (hfound hsecond fun m hm => ?_).trans hnone, hfound hfirst fun m hm => ?_⟩
    · -- nothing is given the first name, and nothing had the second
      rw [respelledKey_eq_first_iff hp]
      exact iff_of_false (fun ⟨heq, hkept⟩ => hchosen (heq ▸ hkept)) (ne_of_get?_eq_none hnone hm)
    · rw [respelledKey_eq_second_iff hp, or_iff_right (ne_of_get?_eq_none hnone hm)]
      exact and_iff_left_of_imp fun heq => by rw [heq]; simpa using hchosen

theorem given?_pair (ms : Members) (first second : String) :
    ms.given? [first, second] = (ms.get? first).or (ms.get? second) := by
  unfold given? findField
  cases hfirst : ms.get? first <;> cases hsecond : ms.get? second <;> simp [hfirst, hsecond]

/-- **What is given under either spelling stays.** -/
theorem given?_eq (h : Respelled lists ms ms') {p : String × String} (hp : p ∈ spellings)
    (hfirst : Table.get? lists p.1 = none) (hsecond : Table.get? lists p.2 = none) :
    ms.given? [p.1, p.2] = ms'.given? [p.1, p.2] := by
  rw [given?_pair, given?_pair]
  rcases h.get?_cases hp hfirst hsecond with ⟨hone, hother⟩ | ⟨hnone, hone, hother⟩
  · rw [hone, hother]
  · rw [hone, hother, hnone, Option.or_none, Option.none_or]

/-- the items of a list are related one by one -/
theorem rel_items? (h : Respelled lists ms ms') (hsingle : OneSpelling key) {E : Json → Json → Prop}
    (hE : Table.get? lists key = some E) : Option.Rel (List.Forall₂ E) (ms.items? key) (ms'.items? key) := by
  have hrel := h.rel_get?_single hsingle
  unfold items?
  generalize ms.get? key = found, ms'.get? key = found' at hrel
  cases hrel with
  | none => exact .some .nil
  | @some v v' hv =>
    unfold Held at hv
    rw [hE] at hv
    cases hv with
    | lists hitems => exact .some hitems
    | other hother =>
      cases v with
      | null => exact .some .nil
      | arr items => exact absurd rfl (hother items)
      | _ => exact .none

/-- no two keys become one -/
theorem distinct' (h : Respelled lists ms ms') : (ms'.map Prod.fst).Nodup := by
  obtain ⟨chosen, hrenamed⟩ := h.renamed
  have hkeys : ms'.map Prod.fst = (ms.map Prod.fst).map (respelledKey chosen) := by
    clear h
    induction hrenamed with
    | nil => rfl
    | cons hm _ ih => rw [List.map_cons, List.map_cons, List.map_cons, hm.1, ih]
  have hmissing : ∀ {k other : String}, k ∈ ms.map Prod.fst → other ∈ ms.map Prod.fst → (k, other) ∉ spellings := by
    intro k other hk hother hp
    rcases h.once _ hp with hnone | hnone
    · exact get?_eq_none_iff.1 hnone hk
    · exact get?_eq_none_iff.1 hnone hother
  rw [hkeys]
  exact h.distinct.map_on fun k hk k' hk' heq => eq_of_respelledKey_eq (hmissing hk hk') (hmissing hk' hk) heq

theorem flat (h : Respelled lists ms ms') (hheld : Table.get? lists "data" = none) (hflat : ms.Flat) : ms'.Flat := by
  intro inner
  rw [← h.get?_eq (by decide) hheld]
  exact hflat inner

end Respelled

end Members

/-! ## Members brought into one shape -/

/-- a field that is given alike is read alike -/
theorem defaultField_eq_ok_congr {α : Type} {ms ms' : Members} {keys : List String} (h : ms.given? keys = ms'.given? keys)
    {default x : α} {read : Json → Checked α} :
    defaultField ms keys default read = .ok x ↔ defaultField ms' keys default read = .ok x := by
  unfold Members.given? at h
  unfold defaultField
  cases hfound : findField ms keys <;> cases hfound' : findField ms' keys <;> rw [hfound, hfound'] at h
  · cases h
  · cases h
  · have hvalue := Option.some.inj h
    dsimp only at hvalue ⊢
    rw [Checked.under_eq_ok_iff, Checked.under_eq_ok_iff, hvalue]

namespace Members

variable {a b : Members} {key : String}

theorem get?_set_congr {k : String} {v w : Json} (h : a.get? key = b.get? key) (hvalue : k = key → v = w) :
    (a.set k v).get? key = (b.set k w).get? key := by
  by_cases hk : k = key
  · subst hk
    rw [get?_set_self, get?_set_self, hvalue rfl]
  · rw [get?_set_of_ne a v hk, get?_set_of_ne b w hk, h]

theorem get?_orElseMember_congr (h : a.get? key = b.get? key) (k : String) (other : Json) :
    Members.get? (orElseMember a k other) key = Members.get? (orElseMember b k other) key := by
  by_cases hk : k = key
  · subst hk
    unfold orElseMember
    rw [h]
    split <;> simp [get?_set_self, h]
  · rw [get?_orElseMember_of_ne hk, get?_orElseMember_of_ne hk, h]

theorem get?_orElseMember_self (a : Members) (key : String) (other : Json) : Members.get? (orElseMember a key other) key =
    some (if ((a.get? key).getD .null).isNull then other else (a.get? key).getD .null) := by
  unfold orElseMember
  cases hget : a.get? key with
  | none => exact get?_set_self a key other
  | some v =>
    cases v with
    | null => exact get?_set_self a key other
    | _ => exact hget

theorem given?_congr {keys : List String} (h : ∀ key ∈ keys, a.get? key = b.get? key) : a.given? keys = b.given? keys :=
  congrArg (Option.map Prod.snd) (Edge.findField_congr h)

theorem Flat.of_none (h : a.get? "data" = none) : a.Flat := by
  intro inner heq
  rw [h] at heq
  cases heq

theorem Flat.innerData_eq (h : a.Flat) : innerData a = [] := by
  unfold innerData
  split
  · next inner heq => exact absurd heq (h inner)
  · rfl

/-- what is left at the top of flat members -/
theorem get?_top (hflat : a.Flat) (hdistinct : (a.map Prod.fst).Nodup) (wanted dropped : List String) (key : String) :
    Members.get? (update (pick (innerData a) wanted) (without a dropped)) key =
      if key ∈ dropped then none else a.get? key := by
  have hnodup : ((without a dropped).map Prod.fst).Nodup := (List.filter_sublist.map Prod.fst).nodup hdistinct
  rw [hflat.innerData_eq, pick_nil, update_nil hnodup, get?_eq_table, get?_eq_table, without,
    Table.get?_filter a fun k => !dropped.contains k]
  by_cases hkey : key ∈ dropped <;> simp [hkey]

end Members

end Classwright
