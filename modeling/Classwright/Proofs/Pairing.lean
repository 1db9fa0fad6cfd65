/-
Every relationship field has its partner.

The fields of all classes fall into pairs, one at each end of a relationship. A pair agrees on the class at the other end,
on the JSON reference and on the kind, seen from either side; one of the two owns the reference, one is mapped by the
other's name, and the other one holds the foreign key or the join table.

- `Slot`, `fieldAt?`: a class and a position in it, and the field that stands there;
- `Partners`: what the two fields of a pair have in common;
- `Pairing`: an involution without fixed points on the slots in use that leads from each field to its partner;
- `Pairing.extend`: two new partners at two unused slots extend a pairing;
- `Link.partners`: the fields of a link are partners, in each of the five shapes;
- `fields_paired`: the fields of a plan are paired, and so are those of a session after any calls, under either policy.
-/
import Classwright.Proofs.Layout

namespace Classwright

/-- where a field stands: its class, and its position there -/
structure Slot where
  owner : String
  position : Nat
  deriving DecidableEq, Repr

def fieldAt? (es : List Entity) (t : Slot) : Option RelationField :=
  (es.find? fun e => e.name == t.owner).bind fun e => e.fields[t.position]?

/-- `f` is mapped by `g`, which holds the foreign key or the join table -/
structure RelationField.MappedTo (f g : RelationField) : Prop where
  names : f.mappedBy = some g.name
  unmapped : g.mappedBy = none
  noColumn : f.joinColumn = none
  noTable : f.joinTable = none
  oneJoin : g.joinColumn.isSome = !g.joinTable.isSome

/-- `f` on class `a` and `g` on class `b` are the two ends of one relationship -/
structure Partners (a : String) (f : RelationField) (b : String) (g : RelationField) : Prop where
  toRight : f.related = b
  toLeft : g.related = a
  reference : ∃ r, f.jsonReference = some r ∧ g.jsonReference = some r
  owning : f.owning = !g.owning
  kind : g.kind = f.kind.dual
  mapped : f.MappedTo g ∨ g.MappedTo f

theorem Partners.symm {a b : String} {f g : RelationField} (h : Partners a f b g) : Partners b g a f where
  toRight := h.toLeft
  toLeft := h.toRight
  reference := let ⟨r, hf, hg⟩ := h.reference; ⟨r, hg, hf⟩
  owning := by rw [h.owning, Bool.not_not]
  kind := by rw [h.kind, RelationKind.dual_dual]
  mapped := h.mapped.symm

/-- the share of a key says nothing about the pair -/
theorem partners_plain {a b : String} {f g : RelationField} :
    Partners a f.plain b g.plain ↔ Partners a f b g := by
  have key : ∀ f' g' : RelationField, f'.plain.MappedTo g'.plain ↔ f'.MappedTo g' := fun _ _ =>
    ⟨fun m => ⟨m.names, m.unmapped, m.noColumn, m.noTable, m.oneJoin⟩,
      fun m => ⟨m.names, m.unmapped, m.noColumn, m.noTable, m.oneJoin⟩⟩
  constructor
  · exact fun h => ⟨h.toRight, h.toLeft, h.reference, h.owning, h.kind, h.mapped.imp (key f g).1 (key g f).1⟩
  · exact fun h => ⟨h.toRight, h.toLeft, h.reference, h.owning, h.kind, h.mapped.imp (key f g).2 (key g f).2⟩

/-! ## Pairings -/

/-- `mate` leads from each slot in use to the slot of the partner -/
structure Pairing (at? : Slot → Option RelationField) (mate : Slot → Slot) : Prop where
  back : ∀ {t f}, at? t = some f → mate (mate t) = t
  apart : ∀ {t f}, at? t = some f → mate t ≠ t
  partner : ∀ {t f}, at? t = some f → ∃ g, at? (mate t) = some g ∧ Partners t.owner f (mate t).owner g

/-- two slots mated with each other, the others as before -/
def mated (mate : Slot → Slot) (a b t : Slot) : Slot := if t = a then b else if t = b then a else mate t

/-- **Two partners more.** Partners put at two slots that were not in use extend a pairing. -/
theorem Pairing.extend {at? at?' : Slot → Option RelationField} {mate : Slot → Slot} (h : Pairing at? mate)
    {a b : Slot} {f g : RelationField} (ha : at? a = none) (hb : at? b = none) (hab : a ≠ b)
    (hp : Partners a.owner f b.owner g)
    (hat : ∀ t, at?' t = if t = b then some g else if t = a then some f else at? t) :
    Pairing at?' (mated mate a b) := by
  -- a slot in use before is neither of the new ones, and neither is its mate
  have old : ∀ {t k}, t ≠ a → t ≠ b → at?' t = some k → at? t = some k ∧ mate t ≠ a ∧ mate t ≠ b := by
    intro t k hta htb hk
    rw [hat, if_neg htb, if_neg hta] at hk
    obtain ⟨m, hm, -⟩ := h.partner hk
    refine ⟨hk, ?_, ?_⟩
    · intro e
      rw [e, ha] at hm
      cases hm
    · intro e
      rw [e, hb] at hm
      cases hm
  refine ⟨?_, ?_, ?_⟩
  · intro t k hk
    by_cases hta : t = a
    · simp [mated, hta, hab.symm]
    · by_cases htb : t = b
      · simp [mated, htb, hab.symm]
      · obtain ⟨hk', hma, hmb⟩ := old hta htb hk
        simp [mated, hta, htb, hma, hmb, h.back hk']
  · intro t k hk
    by_cases hta : t = a
    · simpa [mated, hta] using hab.symm
    · by_cases htb : t = b
      · simpa [mated, htb, hab.symm] using hab
      · simpa [mated, hta, htb] using h.apart (old hta htb hk).1
  · intro t k hk
    by_cases hta : t = a
    · subst hta
      rw [hat, if_neg hab, if_pos rfl] at hk
      cases hk
      exact ⟨g, by simp [mated, hat], by simpa [mated] using hp⟩
    · by_cases htb : t = b
      · subst htb
        rw [hat, if_pos rfl] at hk
        cases hk
        exact ⟨f, by simp [mated, hat, hta, hab], by simpa [mated, hta] using hp.symm⟩
      · obtain ⟨hk', hma, hmb⟩ := old hta htb hk
        obtain ⟨m, hm, hpm⟩ := h.partner hk'
        exact ⟨m, by simp [mated, hat, hta, htb, hma, hmb, hm], by simpa [mated, hta, htb] using hpm⟩

/-! ## The two fields of a link -/

/-- two fields placed on `a` and on `b`, in this order, as partners -/
def ArePartners (ps : List Placed) (a b : String) : Prop :=
  ∃ f g, ps = [⟨a, f⟩, ⟨b, g⟩] ∧ Partners a f b g

namespace Relationship

theorem manyToMany_partners (source target suffix : String) :
    ArePartners (manyToMany source target suffix) source target :=
  ⟨_, _, rfl, rfl, rfl, ⟨_, rfl, rfl⟩, rfl, rfl, Or.inr ⟨rfl, rfl, rfl, rfl, rfl⟩⟩

theorem oneToMany_partners (one many suffix : String) : ArePartners (oneToMany one many suffix) one many :=
  ⟨_, _, rfl, rfl, rfl, ⟨_, rfl, rfl⟩, rfl, rfl, Or.inl ⟨rfl, rfl, rfl, rfl, rfl⟩⟩

theorem oneToOne_partners (source target suffix : String) :
    ArePartners (oneToOne source target suffix) source target :=
  ⟨_, _, rfl, rfl, rfl, ⟨_, rfl, rfl⟩, rfl, rfl, Or.inr ⟨rfl, rfl, rfl, rfl, rfl⟩⟩

theorem viaClass_partners (endpoint assoc suffix : String) :
    ArePartners (viaClass endpoint assoc suffix) endpoint assoc :=
  ⟨_, _, rfl, rfl, rfl, ⟨_, rfl, rfl⟩, rfl, rfl, Or.inl ⟨rfl, rfl, rfl, rfl, rfl⟩⟩

theorem composition_partners (whole part suffix : String) :
    ArePartners (composition whole part suffix) whole part :=
  ⟨_, _, rfl, rfl, rfl, ⟨_, rfl, rfl⟩, rfl, rfl, Or.inl ⟨rfl, rfl, rfl, rfl, rfl⟩⟩

end Relationship

/-- the fields of a link are partners, the declaring end being either of the two -/
theorem Link.partners (l : Link) (k : Nat) :
    ArePartners (l.fields k) l.source l.target ∨ ArePartners (l.fields k) l.target l.source := by
  obtain ⟨shape, source, target⟩ := l
  cases shape with
  | viaClass => exact Or.inl (Relationship.viaClass_partners _ _ _)
  | composition => exact Or.inl (Relationship.composition_partners _ _ _)
  | byCardinality sourceMany targetMany =>
    cases sourceMany <;> cases targetMany
    · exact Or.inl (Relationship.oneToOne_partners _ _ _)
    · exact Or.inl (Relationship.oneToMany_partners _ _ _)
    · exact Or.inr (Relationship.oneToMany_partners _ _ _)
    · exact Or.inl (Relationship.manyToMany_partners _ _ _)

/-! ## Layouts -/

namespace Layout

def fieldAt? (l : Layout) (t : Slot) : Option RelationField :=
  (Table.get? l.rows t.owner).bind fun fs => fs[t.position]?

/-- the first slot of a class that is not in use -/
def nextSlot (l : Layout) (owner : String) : Slot := ⟨owner, ((Table.get? l.rows owner).getD []).length⟩

theorem fieldAt?_nextSlot (l : Layout) (owner : String) : l.fieldAt? (l.nextSlot owner) = none := by
  unfold fieldAt? nextSlot
  cases h : Table.get? l.rows owner <;> simp

theorem fieldAt?_place (l : Layout) {p : Placed} (h : p.owner ∈ Table.keys l.rows) (t : Slot) :
    (l.place p).fieldAt? t = if t = l.nextSlot p.owner then some p.field.plain else l.fieldAt? t := by
  obtain ⟨owner, position⟩ := t
  unfold fieldAt? nextSlot
  simp only [get?_place, Slot.mk.injEq]
  by_cases ho : owner = p.owner
  · subst ho
    obtain ⟨fs, hfs⟩ := Option.isSome_iff_exists.1 ((Table.isSome_get?_iff _ _).2 h)
    simp only [hfs, Option.map_some, Option.bind_some, Option.getD_some, true_and, if_true]
    rw [List.getElem?_append]
    split_ifs with hlt heq heq
    · omega
    · rfl
    · simp [heq]
    · rw [List.getElem?_eq_none (by rw [List.length_singleton]; omega), List.getElem?_eq_none (by omega)]
  · simp [ho]

/-- **A tie keeps fields paired.** -/
theorem exists_pairing_tie {l : Layout} {k : Link} (hs : k.source ∈ Table.keys l.rows)
    (ht : k.target ∈ Table.keys l.rows) (h : ∃ mate, Pairing l.fieldAt? mate) :
    ∃ mate, Pairing (l.tie k).fieldAt? mate := by
  -- the two fields go to the ends of the link, in one order or the other
  obtain ⟨a, b, ha, hb, f, g, hfields, hp⟩ : ∃ a b, a ∈ Table.keys l.rows ∧ b ∈ Table.keys l.rows ∧
      ArePartners (k.fields (l.number k)) a b := by
    rcases k.partners (l.number k) with h | h
    · exact ⟨_, _, hs, ht, h⟩
    · exact ⟨_, _, ht, hs, h⟩
  obtain ⟨mate, hmate⟩ := h
  set l₀ : Layout := { l with numbering := l.numbering.advance k.source k.target }
  set l₁ : Layout := l₀.place ⟨a, f⟩
  have htie : l.tie k = l₁.place ⟨b, g⟩ := by
    show l₀.placeAll (k.fields (l.number k)) = _
    rw [hfields]
    rfl
  have hb₁ : b ∈ Table.keys l₁.rows := by rw [keys_place]; exact hb
  have hat₁ := l₀.fieldAt?_place (p := ⟨a, f⟩) ha
  have hat := l₁.fieldAt?_place (p := ⟨b, g⟩) hb₁
  have hfree : l₀.fieldAt? (l₁.nextSlot b) = none ∧ l₀.nextSlot a ≠ l₁.nextSlot b := by
    have hnext := l₁.fieldAt?_nextSlot b
    rw [hat₁] at hnext
    split_ifs at hnext with heq
    exact ⟨hnext, fun e => heq e.symm⟩
  refine ⟨mated mate (l₀.nextSlot a) (l₁.nextSlot b), ?_⟩
  refine Pairing.extend (f := f.plain) (g := g.plain) hmate (l₀.fieldAt?_nextSlot a) hfree.1 hfree.2
    (partners_plain.2 hp) fun t => ?_
  rw [htie, hat, hat₁]
  rfl

theorem exists_pairing_tieAll {ks : List Link} {l : Layout}
    (hks : ∀ k ∈ ks, k.source ∈ Table.keys l.rows ∧ k.target ∈ Table.keys l.rows)
    (h : ∃ mate, Pairing l.fieldAt? mate) : ∃ mate, Pairing (l.tieAll ks).fieldAt? mate := by
  induction ks generalizing l with
  | nil => exact h
  | cons k rest ih =>
    obtain ⟨hs, ht⟩ := hks k List.mem_cons_self
    refine ih (fun k' hk' => ?_) (exists_pairing_tie hs ht h)
    rw [keys_tie]
    exact hks k' (List.mem_cons_of_mem _ hk')

end Layout

/-! ## Sessions and plans -/

namespace Session

theorem fieldAt?_layout (s : Session) (t : Slot) :
    s.layout.fieldAt? t = (Classwright.fieldAt? s.entities t).map RelationField.plain := by
  unfold Layout.fieldAt? Classwright.fieldAt? layout
  induction s.entities with
  | nil => rfl
  | cons e rest ih =>
    by_cases h : e.name = t.owner
    · simp [Table.get?, Entity.outline, h]
    · simpa [Table.get?, Entity.outline, h] using ih

theorem pairing_of_layout {s : Session} {mate : Slot → Slot} (h : Pairing s.layout.fieldAt? mate) :
    Pairing (Classwright.fieldAt? s.entities) mate := by
  have plain : ∀ {t f}, Classwright.fieldAt? s.entities t = some f → s.layout.fieldAt? t = some f.plain := by
    intro t f hf
    rw [fieldAt?_layout, hf, Option.map_some]
  refine ⟨fun hf => h.back (plain hf), fun hf => h.apart (plain hf), fun hf => ?_⟩
  obtain ⟨g, hg, hp⟩ := h.partner (plain hf)
  rw [fieldAt?_layout] at hg
  obtain ⟨g', hg', rfl⟩ := Option.map_eq_some_iff.1 hg
  exact ⟨g', hg', partners_plain.1 hp⟩

theorem exists_pairing_start (t : NameTable) (policy : Policy) :
    ∃ mate, Pairing (start t policy).layout.fieldAt? mate := by
  have unused : ∀ {u f}, (start t policy).layout.fieldAt? u ≠ some f := by
    intro u f hf
    rw [fieldAt?_layout] at hf
    obtain ⟨g, hg, -⟩ := Option.map_eq_some_iff.1 hf
    obtain ⟨e, he, hi⟩ := Option.bind_eq_some_iff.1 hg
    obtain ⟨c, -, rfl⟩ := List.mem_map.1 (List.mem_of_find?_eq_some he)
    simp at hi
  exact ⟨id, fun h => absurd h unused, fun h => absurd h unused, fun h => absurd h unused⟩

theorem Regular.exists_pairing_step {s : Session} (hs : s.Regular) (h : ∃ mate, Pairing s.layout.fieldAt? mate)
    (c : Call) : ∃ mate, Pairing (s.step c).session.layout.fieldAt? mate := by
  rcases layout_step s c with ⟨-, hsame⟩ | ⟨-, htied⟩
  · rw [hsame]; exact h
  · rw [htied]; exact Layout.exists_pairing_tieAll (fun k hk => hs.mem_keys hk) h

theorem Regular.exists_pairing_after {s : Session} (hs : s.Regular) (h : ∃ mate, Pairing s.layout.fieldAt? mate)
    (cs : List Call) : ∃ mate, Pairing (s.after cs).layout.fieldAt? mate := by
  induction cs generalizing s with
  | nil => exact h
  | cons c rest ih => exact ih (hs.step c) (hs.exists_pairing_step h c)

end Session

/-- entities of which each has a name of its own and every field its partner -/
structure PairedEntities (es : List Entity) : Prop where
  nodup : (es.map Entity.name).Nodup
  exists_pairing : ∃ mate, Pairing (fieldAt? es) mate

namespace PairedEntities

/-- the partner of a field is a field of the class that the field leads to -/
theorem partner_of_mem {es : List Entity} (h : PairedEntities es) {e : Entity} {f : RelationField} (he : e ∈ es)
    (hf : f ∈ e.fields) : ∃ r ∈ es, r.name = f.related ∧ ∃ g ∈ r.fields, Partners e.name f r.name g := by
  obtain ⟨mate, hmate⟩ := h.exists_pairing
  obtain ⟨i, hi, hget⟩ := List.mem_iff_getElem.1 hf
  have hat : fieldAt? es ⟨e.name, i⟩ = some f := by
    unfold fieldAt?
    rw [Entity.find?_eq h.nodup he, Option.bind_some, List.getElem?_eq_getElem hi, hget]
  obtain ⟨g, hg, hp⟩ := hmate.partner hat
  obtain ⟨r, hr, hgr⟩ := Option.bind_eq_some_iff.1 hg
  have hname : r.name = (mate ⟨e.name, i⟩).owner := by simpa using List.find?_some hr
  rw [← hname] at hp
  exact ⟨r, List.mem_of_find?_eq_some hr, hp.toRight.symm, g, List.mem_of_getElem? hgr, hp⟩

end PairedEntities

theorem Session.paired_after (d : Diagram) (policy : Policy) (cs : List Call) :
    PairedEntities ((Session.start d.nameTable policy).after cs).entities := by
  have hreg := Session.regular_start (NameTable.closed_ofDiagram d) policy
  obtain ⟨mate, hmate⟩ := hreg.exists_pairing_after (Session.exists_pairing_start _ _) cs
  exact ⟨(hreg.after cs).nodup, mate, Session.pairing_of_layout hmate⟩

theorem Plan.paired_of_build {policy : Policy} {d : Diagram} {p : Plan} (h : Plan.build policy d = .ok p) :
    PairedEntities p.entities := by
  obtain ⟨q, hrun, hentities⟩ := Plan.run_of_build h
  rw [hentities, Plan.session_of_takeAll hrun]
  exact Session.paired_after d policy _

/-- **Every field has its partner.** The fields of a plan are paired under either policy, and so are those of a session
after any calls, be they refused or not. -/
theorem fields_paired (d : Diagram) (policy : Policy) :
    (∀ p, Plan.build policy d = .ok p → PairedEntities p.entities) ∧
      ∀ cs, PairedEntities ((Session.start d.nameTable policy).after cs).entities :=
  ⟨fun _ hp => Plan.paired_of_build hp, Session.paired_after d policy⟩

/-- a part of two wholes, one of them itself, and an association through one of its own ends -/
def crossed : Diagram where
  nodes := [⟨"a", "A", [], false⟩, ⟨"b", "B", [], false⟩]
  edges := [⟨"", "a", "b", none, none, none, .composition⟩, ⟨"", "b", "b", none, none, none, .composition⟩,
    ⟨"", "a", "b", none, none, none, .association (some "b")⟩,
    ⟨"", "a", "a", none, some "*", some "*", .dependency⟩]
  metadata := .null

theorem crossed_fields_paired : ∃ p, Plan.build .lastWins crossed = .ok p ∧
    p.entities.map (fun e => e.fields.map RelationField.name) =
      [["bs", "bs2", "as", "inverseAs"], ["a", "bs", "b", "a2", "bs2", "b2"]] ∧ PairedEntities p.entities :=
  ⟨_, rfl, by decide, (fields_paired crossed .lastWins).1 _ rfl⟩

end Classwright
