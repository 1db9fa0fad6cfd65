/-
Which classes are served under one route.

A controller serves its class under a route that ends in the name of the class, its first letter in lower case, and the
request collection asks there. A class name is made of plain letters and digits and begins with a capital or a digit; then
the lower-case form tells which it was. But a label without plain letters and digits is a class name as it stands, and two
of these can differ in the case of their first character alone.

- `Text.lowerChar_cases`: the lower-case form of a character is one character, and a plain one only for plain letters and
  the sign for kelvin, or it is the form of the dotted capital;
- `Naming.identifier_cases`: the two kinds of class names;
- `Naming.OneInLower`: two names with one lower-case form; `lowerFirst_eq_iff`: they are the only ones;
- `Folder.collectionUrl?`: where a folder asks for all objects of its class;
- `routes_distinct`: which routes and URLs are distinct; `accented_share_route`: two that are not.
-/
import Classwright.Proofs.Identifiers
import Classwright.Proofs.Requests

namespace Classwright

namespace Text

open Naming (isAsciiAlphanumeric)

/-- the sign for kelvin looks like a capital letter, and is written `k` in lower case -/
def kelvin : Char := '\u212A'

/-- what holds of the first 128 characters can be decided -/
theorem forall_ascii {P : Char → Prop} (h : ∀ n < 128, P (Char.ofNat n)) {c : Char} (hc : c.toNat < 128) : P c := by
  rw [← Char.ofNat_toNat c]
  exact h c.toNat hc

theorem lowerChar_of_alphanumeric {c : Char} (h : isAsciiAlphanumeric c = true) : lowerChar c = [c.toLower] :=
  if_pos (Naming.toNat_lt_of_alphanumeric h)

theorem alphanumeric_toLower_iff {c : Char} (hc : c.toNat < 128) :
    isAsciiAlphanumeric c.toLower = true ↔ isAsciiAlphanumeric c = true :=
  forall_ascii (P := fun c => isAsciiAlphanumeric c.toLower = true ↔ isAsciiAlphanumeric c = true) (by decide +kernel) hc

/-- letters and digits have small numbers -/
theorem lt_of_alphanumeric_ofNat {n : Nat} (h : isAsciiAlphanumeric (Char.ofNat n) = true) : n < 128 := by
  by_cases hvalid : n.isValidChar
  · have hsmall := Naming.toNat_lt_of_alphanumeric h
    rwa [Char.ofNat, dif_pos hvalid] at hsmall
  · rw [Char.ofNat, dif_neg hvalid] at h
    exact absurd h (by decide)

/-- beyond the plain letters, only the sign for kelvin becomes one -/
theorem eq_kelvin_of_shift {c : Char} {d : Int} (hd : findShift lowerRuns c.toNat = some d)
    (h : isAsciiAlphanumeric (shiftChar c d) = true) : c = kelvin := by
  have hruns : ∀ r ∈ lowerRuns, (r.1 : Int) + r.2.2.2 < 128 → r.1 = 8490 ∧ r.2.1 = 8490 := by decide +kernel
  obtain ⟨r, hr, rfl⟩ := Option.map_eq_some_iff.1 hd
  have hfound := List.find?_some hr
  obtain ⟨hstart, hlast, -⟩ : r.1 ≤ c.toNat ∧ c.toNat ≤ r.2.1 ∧ (c.toNat - r.1) % r.2.2.1 = 0 := of_decide_eq_true hfound
  have hsmall := lt_of_alphanumeric_ofNat h
  obtain ⟨hfirst, hend⟩ := hruns r (List.mem_of_find?_eq_some hr) (by omega)
  have hnumber : c.toNat = 8490 := by omega
  rw [← Char.ofNat_toNat c, hnumber]
  rfl

/-- **The lower-case form of a character.** It is one character, and that is a plain letter or digit only when the character
is one, or is the sign for kelvin; only the dotted capital has a form of two. -/
theorem lowerChar_cases (c : Char) :
    (∃ e, lowerChar c = [e] ∧ (isAsciiAlphanumeric e = true → isAsciiAlphanumeric c = true ∨ c = kelvin)) ∨
      c = 'İ' ∧ lowerChar c = ['i', '\u0307'] := by
  by_cases hdotted : c = 'İ'
  · subst hdotted
    exact Or.inr ⟨rfl, rfl⟩
  · left
    by_cases hsmall : c.toNat < 128
    · exact ⟨c.toLower, if_pos hsmall, fun h => Or.inl ((alphanumeric_toLower_iff hsmall).1 h)⟩
    · unfold lowerChar
      rw [if_neg hsmall, if_neg hdotted]
      cases hd : findShift lowerRuns c.toNat with
      | none => exact ⟨c, rfl, Or.inl⟩
      | some d => exact ⟨shiftChar c d, rfl, fun h => Or.inr (eq_kelvin_of_shift hd h)⟩

theorem lowerChar_kelvin : lowerChar kelvin = ['k'] := by decide +kernel

theorem toList_lowerFirst {s : String} {c : Char} {rest : List Char} (h : s.toList = c :: rest) :
    (lowerFirst s).toList = lowerChar c ++ rest := by
  unfold lowerFirst
  rw [h]
  exact String.toList_ofList

end Text

namespace Naming

open Text (kelvin lowerChar lowerChar_cases lowerChar_kelvin lowerChar_of_alphanumeric)

/-! ## The two kinds of class names -/

/-- letters and digits, of which the first is known from its lower-case form -/
structure Plain (name : String) (first : Char) (rest : List Char) : Prop where
  toList : name.toList = first :: rest
  upper : first.toLower.toUpper = first
  first_alphanumeric : isAsciiAlphanumeric first = true
  rest_alphanumeric : ∀ c ∈ rest, isAsciiAlphanumeric c = true

theorem toUpper_toLower_toUpper {c : Char} (h : isAsciiAlphanumeric c = true) : c.toUpper.toLower.toUpper = c.toUpper :=
  Text.forall_ascii (P := fun c => c.toUpper.toLower.toUpper = c.toUpper) (by decide +kernel) (toNat_lt_of_alphanumeric h)

/-- a class name is made of letters and digits, or has none of them -/
theorem identifier_cases (label : String) :
    (∃ first rest, Plain (identifier label) first rest) ∨ className (identifier label) = "" := by
  by_cases hname : className label = ""
  · right
    rw [identifier_of_eq hname, hname]
  · left
    obtain ⟨c, hc⟩ := initial?_isSome hname
    obtain ⟨rest, hrest⟩ := toList_className hc
    have halphanumeric : ∀ x ∈ c.toUpper :: rest, isAsciiAlphanumeric x = true := fun x hx =>
      alphanumeric_of_mem_className (hrest ▸ hx)
    rw [identifier_of_ne hname]
    exact ⟨c.toUpper, rest, hrest, toUpper_toLower_toUpper (List.find?_some hc), halphanumeric _ List.mem_cons_self,
      fun x hx => halphanumeric x (List.mem_cons_of_mem _ hx)⟩

/-- two names with one lower-case form: labels without plain letters and digits that differ in the case of their first
character at most, or the letter K and the sign for kelvin -/
def OneInLower (a b : String) : Prop :=
  (className a = "" ∧ className b = "" ∧
    ∃ c c' rest, a.toList = c :: rest ∧ b.toList = c' :: rest ∧ lowerChar c = lowerChar c') ∨
  (a = "K" ∧ b = String.singleton kelvin) ∨ (a = String.singleton kelvin ∧ b = "K")

theorem OneInLower.symm {a b : String} (h : OneInLower a b) : OneInLower b a := by
  rcases h with ⟨ha, hb, c, c', rest, hc, hc', hlower⟩ | ⟨ha, hb⟩ | ⟨ha, hb⟩
  · exact Or.inl ⟨hb, ha, c', c, rest, hc', hc, hlower.symm⟩
  · exact Or.inr (Or.inr ⟨hb, ha⟩)
  · exact Or.inr (Or.inl ⟨hb, ha⟩)

theorem OneInLower.lowerFirst_eq {a b : String} (h : OneInLower a b) : lowerFirst a = lowerFirst b := by
  rcases h with ⟨-, -, c, c', rest, hc, hc', hlower⟩ | ⟨rfl, rfl⟩ | ⟨rfl, rfl⟩
  · refine String.toList_inj.1 ?_
    unfold lowerFirst
    rw [Text.toList_lowerFirst hc, Text.toList_lowerFirst hc', hlower]
  · decide +kernel
  · decide +kernel

/-- names of letters and digits are told apart by their lower-case forms -/
theorem Plain.eq_of_lowerFirst {a b : String} {x y : Char} {xs ys : List Char} (ha : Plain a x xs) (hb : Plain b y ys)
    (h : lowerFirst a = lowerFirst b) : a = b := by
  have hlist : (lowerFirst a).toList = (lowerFirst b).toList := congrArg String.toList h
  unfold lowerFirst at hlist
  rw [Text.toList_lowerFirst ha.toList, Text.toList_lowerFirst hb.toList, lowerChar_of_alphanumeric ha.first_alphanumeric,
    lowerChar_of_alphanumeric hb.first_alphanumeric] at hlist
  obtain ⟨hfirst, hrest⟩ := List.cons.inj hlist
  refine String.toList_inj.1 ?_
  rw [ha.toList, hb.toList, ← ha.upper, ← hb.upper, hfirst]
  exact congrArg _ hrest

/-- a name of letters and digits and one without them have one lower-case form only as K and the sign for kelvin -/
theorem Plain.oneInLower {a b : String} {x : Char} {xs : List Char} (ha : Plain a x xs) (hb : className b = "")
    (h : lowerFirst a = lowerFirst b) : OneInLower a b := by
  have hlist : (lowerFirst a).toList = (lowerFirst b).toList := congrArg String.toList h
  have hnone : ∀ c ∈ b.toList, isAsciiAlphanumeric c = false := fun c hc => not_alphanumeric_of_className_empty hb hc
  have hlower : isAsciiAlphanumeric x.toLower = true :=
    (Text.alphanumeric_toLower_iff (toNat_lt_of_alphanumeric ha.first_alphanumeric)).2 ha.first_alphanumeric
  unfold lowerFirst at hlist
  rw [Text.toList_lowerFirst ha.toList, lowerChar_of_alphanumeric ha.first_alphanumeric] at hlist
  cases hlabel : b.toList with
  | nil =>
    unfold Text.lowerFirst at hlist
    rw [hlabel] at hlist
    cases hlist
  | cons y ys =>
    rw [Text.toList_lowerFirst hlabel] at hlist
    rw [hlabel] at hnone
    rcases lowerChar_cases y with ⟨e, he, hplain⟩ | ⟨-, he⟩
    · rw [he] at hlist
      obtain ⟨rfl, rfl⟩ := List.cons.inj hlist
      rcases hplain hlower with hy | rfl
      · exact absurd hy (Bool.eq_false_iff.1 (hnone y List.mem_cons_self))
      · have hk : x.toLower = 'k' := (List.cons.inj (he.symm.trans lowerChar_kelvin)).1
        have hK : x = 'K' := by rw [← ha.upper, hk]; rfl
        -- what stands behind is made of letters and digits, and has none of them
        have hnil : xs = [] := List.eq_nil_iff_forall_not_mem.2 fun c hc =>
          Bool.eq_false_iff.1 (hnone c (List.mem_cons_of_mem _ hc)) (ha.rest_alphanumeric c hc)
        subst hnil
        refine Or.inr (Or.inl ⟨String.toList_inj.1 ?_, String.toList_inj.1 ?_⟩)
        · rw [ha.toList, hK]
          rfl
        · rw [hlabel]
          rfl
    · rw [he] at hlist
      obtain ⟨-, rfl⟩ := List.cons.inj hlist
      exact absurd (ha.rest_alphanumeric _ List.mem_cons_self) (by decide)

/-- the lower-case form of a character that is no plain letter; that of the dotted capital alone begins with `i` -/
theorem lowerChar_of_not_alphanumeric {c : Char} (h : isAsciiAlphanumeric c = false) :
    (∃ e, lowerChar c = [e] ∧ e ≠ 'i') ∨ lowerChar c = ['i', '\u0307'] := by
  rcases lowerChar_cases c with ⟨e, he, hplain⟩ | ⟨-, he⟩
  · refine Or.inl ⟨e, he, ?_⟩
    rintro rfl
    rcases hplain (by decide) with hc | rfl
    · exact Bool.eq_false_iff.1 h hc
    · exact absurd (he.symm.trans lowerChar_kelvin) (by decide)
  · exact Or.inr he

/-- labels without letters and digits have one lower-case form only when they differ in their first character alone -/
theorem oneInLower_of_labels {a b : String} (ha : className a = "") (hb : className b = "") (hne : a ≠ b)
    (h : lowerFirst a = lowerFirst b) : OneInLower a b := by
  have hfirst : ∀ {s : String} {c : Char} {rest : List Char}, className s = "" → s.toList = c :: rest →
      (∃ e, lowerChar c = [e] ∧ e ≠ 'i') ∨ lowerChar c = ['i', '\u0307'] := fun hs hlist =>
    lowerChar_of_not_alphanumeric (not_alphanumeric_of_className_empty hs (hlist ▸ List.mem_cons_self))
  have hthere : ∀ {s t : String}, lowerFirst s = lowerFirst t → s ≠ t → s ≠ "" := by
    rintro s t heq hst rfl
    by_cases ht : t = ""
    · exact hst ht.symm
    · exact Relationship.lowerFirst_ne_empty ht heq.symm
  obtain ⟨c, rest, hc⟩ := List.exists_cons_of_ne_nil (mt String.toList_eq_nil_iff.1 (hthere h hne))
  obtain ⟨c', rest', hc'⟩ := List.exists_cons_of_ne_nil (mt String.toList_eq_nil_iff.1 (hthere h.symm hne.symm))
  have hlist : (lowerFirst a).toList = (lowerFirst b).toList := congrArg String.toList h
  unfold lowerFirst at hlist
  rw [Text.toList_lowerFirst hc, Text.toList_lowerFirst hc'] at hlist
  have hsame : lowerChar c = lowerChar c' ∧ rest = rest' := by
    rcases hfirst ha hc with ⟨e, he, hi⟩ | he <;> rcases hfirst hb hc' with ⟨e', he', hi'⟩ | he' <;> rw [he, he'] at hlist ⊢
    · obtain ⟨rfl, hrest⟩ := List.cons.inj hlist
      exact ⟨rfl, hrest⟩
    · exact absurd (List.cons.inj hlist).1 hi
    · exact absurd (List.cons.inj hlist).1.symm hi'
    · exact ⟨rfl, (List.cons.inj (List.cons.inj hlist).2).2⟩
  obtain ⟨hlower, rfl⟩ := hsame
  exact Or.inl ⟨ha, hb, c, c', rest, hc, hc', hlower⟩

/-- **Names with one lower-case form.** -/
theorem lowerFirst_eq_iff {label label' : String} (hne : identifier label ≠ identifier label') :
    lowerFirst (identifier label) = lowerFirst (identifier label') ↔ OneInLower (identifier label) (identifier label') := by
  refine ⟨fun h => ?_, OneInLower.lowerFirst_eq⟩
  rcases identifier_cases label with ⟨x, xs, ha⟩ | ha <;> rcases identifier_cases label' with ⟨y, ys, hb⟩ | hb
  · exact absurd (ha.eq_of_lowerFirst hb h) hne
  · exact ha.oneInLower hb h
  · exact (hb.oneInLower ha h.symm).symm
  · exact oneInLower_of_labels ha hb hne h

end Naming

/-! ## Routes -/

/-- the URL under which a folder asks for all objects of its class -/
def Folder.collectionUrl? (f : Folder) : Option String := f.requests.head?.bind fun r => (r.url.field "raw").str?

theorem Folder.collectionUrl?_ofClass (name : String) (attributes : List Attribute) :
    (Folder.ofClass name attributes).collectionUrl? = some (basePlaceholder ++ Java.baseRoute name) := by
  show some (basePlaceholder ++ "/" ++ ("api" ++ "/" ++ Naming.lowerFirst name)) = _
  unfold Java.baseRoute
  rw [String.append_assoc, ← String.append_assoc]
  rfl

theorem Java.baseRoute_inj {a b : String} : baseRoute a = baseRoute b ↔ Naming.lowerFirst a = Naming.lowerFirst b :=
  String.append_right_inj _

namespace Plan

/-- two classes of a plan share a route exactly when their names are one in lower case -/
theorem baseRoute_eq_iff {policy : Policy} {d : Diagram} {p : Plan} (h : build policy d = .ok p) {e f : Entity}
    (he : e ∈ p.entities) (hf : f ∈ p.entities) (hne : e.name ≠ f.name) :
    Java.baseRoute e.name = Java.baseRoute f.name ↔ Naming.OneInLower e.name f.name := by
  have hlabel : ∀ {e : Entity}, e ∈ p.entities → ∃ n ∈ d.nodes, Naming.identifier n.label = e.name := fun he =>
    (NameTable.mem_names_ofDiagram d _).1 (names_of_build h ▸ List.mem_map_of_mem he)
  obtain ⟨m, -, hm⟩ := hlabel he
  obtain ⟨n, -, hn⟩ := hlabel hf
  rw [← hm, ← hn] at hne ⊢
  rw [Java.baseRoute_inj, Naming.lowerFirst_eq_iff hne]

end Plan

/-- **Which classes have a route of their own.** Two classes of a plan have different routes, unless both names are labels
without plain letters and digits that differ in the case of their first character alone, or one is K and the other the sign
for kelvin; then they share their route. The controller of every class declares this route, and the collection has a folder
for every class, which asks for its objects there. -/
theorem routes_distinct (policy : Policy) (d : Diagram) (p : Plan) (h : Plan.build policy d = .ok p) (name baseUrl : String) :
    (∀ e ∈ p.entities, ∀ f ∈ p.entities, e.name ≠ f.name →
      (Java.baseRoute e.name = Java.baseRoute f.name ↔ Naming.OneInLower e.name f.name)) ∧
    (∀ e ∈ p.entities, ∃ ms, Java.Controls (Java.renderController e) e.name (Java.baseRoute e.name) ms) ∧
    List.Forall₂ (fun f e => f.name = e.name ∧ f.collectionUrl? = some (basePlaceholder ++ Java.baseRoute e.name))
      (Collection.ofDiagram name baseUrl d).1.folders p.entities := by
  refine ⟨fun e he f hf hne => Plan.baseRoute_eq_iff h he hf hne, fun e _ => ?_, ?_⟩
  · obtain ⟨more, hcontrols, -⟩ := Java.controls_controller e
    exact ⟨_, hcontrols⟩
  · rw [Plan.folders_of_build h, List.forall₂_map_left_iff]
    exact List.forall₂_same.2 fun e _ => ⟨rfl, Folder.collectionUrl?_ofClass e.name e.attributes⟩

/-- an order, its items, and two letters that are no plain ones -/
def lettered : Diagram where
  nodes := [⟨"o", "order", [], false⟩, ⟨"i", "Order item", [], false⟩, ⟨"w", "Ω", [], false⟩, ⟨"i2", "İ", [], false⟩]
  edges := []
  metadata := .null

theorem lettered_routes : ∃ p, Plan.build .lastWins lettered = .ok p ∧
    p.entities.map Entity.name = ["Order", "Orderitem", "Ω", "İ"] ∧
    p.entities.map (fun e => Java.baseRoute e.name) = ["/api/order", "/api/orderitem", "/api/ω", "/api/i\u0307"] ∧
    (∀ e ∈ p.entities, ∀ f ∈ p.entities, e.name ≠ f.name →
      (Java.baseRoute e.name = Java.baseRoute f.name ↔ Naming.OneInLower e.name f.name)) := by
  obtain ⟨hroutes, -, -⟩ := routes_distinct .lastWins lettered _ rfl "" ""
  exact ⟨_, rfl, by decide +kernel, by decide +kernel, hroutes⟩

/-- a letter in both cases -/
def accented : Diagram where
  nodes := [⟨"a", "É", [], false⟩, ⟨"b", "é", [], false⟩]
  edges := []
  metadata := .null

/-- **Two classes under one route.** -/
theorem accented_share_route : ∃ p, Plan.build .lastWins accented = .ok p ∧ p.entities.map Entity.name = ["É", "é"] ∧
    p.entities.map (fun e => Java.baseRoute e.name) = ["/api/é", "/api/é"] ∧
    (Collection.ofDiagram "" "" accented).1.folders.map Folder.collectionUrl? =
      [some (basePlaceholder ++ "/api/é"), some (basePlaceholder ++ "/api/é")] :=
  ⟨_, rfl, by decide +kernel, by decide +kernel, by decide +kernel⟩

end Classwright
