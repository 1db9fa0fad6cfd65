/-
What a call can come to.

Each of the three readings of an edge ends in one of a few ways, told apart by its ends, the names behind them, and what
the session knows already. Whatever is said of a call is said of these ways, one after the other.

- `Inherits`, `Composes`, `Relates`: the ways, each with what holds when it is taken and the reply it gives;
- `inherits`, `composes`, `relates`: every call goes one of them;
- `keeps_inherit`, `keeps_compose`, `keeps_relate`: what the single changes keep, the call keeps;
- `unseen_compose`, `unseen_relate`: what these calls leave alone; `names_step`: no call changes the names.
-/
import Mathlib.Logic.Basic
import Classwright.Plan.Session

namespace Classwright

namespace NameTable

/-- the classes at the ends of an edge, when both have a name -/
def ends? (t : NameTable) (e : Edge) : Option (String × String) :=
  match t.named? e.source, t.named? e.target with
  | some a, some b => some (a, b)
  | _, _ => none

/-- the association class an edge leads through -/
def assoc? (t : NameTable) (e : Edge) : Option String := (given? e.kind.associationClassId).bind t.named?

theorem named_of_ends? {t : NameTable} {e : Edge} {a b : String} (h : t.ends? e = some (a, b)) :
    t.named? e.source = some a ∧ t.named? e.target = some b := by
  unfold ends? at h
  split at h
  · cases h; exact ⟨by assumption, by assumption⟩
  · cases h

theorem named_of_assoc? {t : NameTable} {e : Edge} {j : String} (h : t.assoc? e = some j) :
    ∃ id, t.named? id = some j := by
  obtain ⟨id, -, hj⟩ := Option.bind_eq_some_iff.1 h
  exact ⟨id, hj⟩

end NameTable

namespace Session

variable (s : Session) (e : Edge)

theorem ends?_eq : s.ends? e = s.names.ends? e := rfl

/-! ## Inheritance -/

inductive Inherits (r : Reply) : Prop
  | unresolved (hends : s.names.ends? e = none) (hr : r = s.unresolved "Inheritance" e)
  | self {c : String} (hends : s.names.ends? e = some (c, c)) (hr : ∃ log, r = s.dropped log)
  | known {parent child : String} (hends : s.names.ends? e = some (parent, child)) (hne : parent ≠ child)
      (hparent : s.hierarchy.parent? child = some parent) (hr : r = s.taken [])
  | refused {parent child previous : String} (hends : s.names.ends? e = some (parent, child)) (hne : parent ≠ child)
      (hparent : s.hierarchy.parent? child = some previous) (hother : previous ≠ parent) (hpolicy : s.policy = .fail)
      (hr : r = ⟨.error ⟨.inheritance, child, previous, parent⟩, s, []⟩)
  | adopted {parent child : String} (hends : s.names.ends? e = some (parent, child)) (hne : parent ≠ child)
      (hparent : ∀ previous, s.hierarchy.parent? child = some previous → previous ≠ parent ∧ s.policy = .lastWins)
      (hr : ∃ log, r = { s with hierarchy := s.hierarchy.adopt parent child }.taken log)

theorem inherits : s.Inherits e (s.inherit e) := by
  unfold inherit
  rw [ends?_eq]
  cases hends : s.names.ends? e with
  | none => exact .unresolved hends rfl
  | some ends =>
    obtain ⟨parent, child⟩ := ends
    dsimp only
    by_cases hself : parent = child
    · subst hself
      rw [if_pos rfl]
      exact .self hends ⟨_, rfl⟩
    · rw [if_neg hself]
      cases hparent : s.hierarchy.parent? child with
      | none => exact .adopted hends hself (fun previous h => by rw [hparent] at h; cases h) ⟨_, rfl⟩
      | some previous =>
        dsimp only
        by_cases hsame : previous = parent
        · subst hsame
          rw [if_pos rfl]
          exact .known hends hself hparent rfl
        · rw [if_neg hsame]
          split
          · next hpolicy => exact .refused hends hself hparent hsame hpolicy rfl
          · next hpolicy =>
            refine .adopted hends hself (fun p hp => ?_) ⟨_, rfl⟩
            rw [hparent] at hp
            cases hp
            exact ⟨hsame, hpolicy⟩

/-! ## Composition -/

inductive Composes (r : Reply) : Prop
  | unresolved (hends : s.names.ends? e = none) (hr : r = s.unresolved "Composition" e)
  | first {whole part : String} (hends : s.names.ends? e = some (whole, part))
      (hfree : (s.entity? part).bind Entity.identity = none) (hr : r = (s.bind whole part).taken [])
  | refused {whole part : String} {held : CompositeIdentity} (hends : s.names.ends? e = some (whole, part))
      (hheld : (s.entity? part).bind Entity.identity = some held) (hpolicy : s.policy = .fail)
      (hr : r = ⟨.error ⟨.composition, part, held.wholeClass, whole⟩, s, []⟩)
  | again {whole part : String} {held : CompositeIdentity} (hends : s.names.ends? e = some (whole, part))
      (hheld : (s.entity? part).bind Entity.identity = some held) (hpolicy : s.policy = .lastWins)
      (hr : ∃ log, r = ((s.modify part releaseIdentity).bind whole part).taken log)

theorem composes : s.Composes e (s.compose e) := by
  unfold compose
  rw [ends?_eq]
  cases hends : s.names.ends? e with
  | none => exact .unresolved hends rfl
  | some ends =>
    obtain ⟨whole, part⟩ := ends
    dsimp only
    cases hheld : (s.entity? part).bind Entity.identity with
    | none => exact .first hends hheld rfl
    | some held =>
      dsimp only
      split
      · next hpolicy => exact .refused hends hheld hpolicy rfl
      · next hpolicy => exact .again hends hheld hpolicy ⟨_, rfl⟩

/-! ## Other relationships -/

/-- an edge that is read as a relationship of its own -/
def IsPlain (e : Edge) : Prop := ¬ (e.kind = .inheritance ∨ e.kind = .composition)

inductive Relates (r : Reply) : Prop
  | other (hkind : ¬ IsPlain e) (hr : r = s.dropped [])
  | unresolved (hkind : IsPlain e) (hends : s.names.ends? e = none) (hr : r = s.unresolved "Classifier" e)
  | direct {source target : String} (hkind : IsPlain e) (hends : s.names.ends? e = some (source, target))
      (hassoc : s.names.assoc? e = none) (hr : ∃ log, r = (s.joinEdge e source target).taken log)
  | through {source target assoc : String} (hkind : IsPlain e) (hends : s.names.ends? e = some (source, target))
      (hassoc : s.names.assoc? e = some assoc)
      (hr : r = ((s.joinClass source assoc).joinClass target assoc).taken [])

theorem relates : s.Relates e (s.relate e) := by
  unfold relate
  split
  · next h => exact .other (not_not.2 (Or.inl h)) rfl
  · next h => exact .other (not_not.2 (Or.inr h)) rfl
  · next hinherit hcompose =>
    have hkind : IsPlain e := not_or.2 ⟨hinherit, hcompose⟩
    rw [ends?_eq]
    cases hends : s.names.ends? e with
    | none => exact .unresolved hkind hends rfl
    | some ends =>
      obtain ⟨source, target⟩ := ends
      dsimp only
      cases hid : given? e.kind.associationClassId with
      | none =>
        refine .direct hkind hends ?_ ⟨_, rfl⟩
        rw [NameTable.assoc?, hid]
        rfl
      | some id =>
        have hassoc : s.names.assoc? e = s.names.named? id := by
          rw [NameTable.assoc?, hid]
          rfl
        dsimp only
        cases hnamed : s.names.named? id with
        | none => exact .direct hkind hends (hassoc.trans hnamed) ⟨_, rfl⟩
        | some assoc => exact .through hkind hends (hassoc.trans hnamed) rfl

/-! ## What calls keep -/

section

variable {s e} {P : Session → Prop}

/-- what a new parent keeps, an inheritance edge keeps -/
theorem keeps_inherit (hs : P s)
    (adopt : ∀ parent child, P { s with hierarchy := s.hierarchy.adopt parent child }) : P (s.inherit e).session := by
  cases s.inherits e with
  | unresolved _ hr => rw [hr]; exact hs
  | self _ hr => obtain ⟨log, hr⟩ := hr; rw [hr]; exact hs
  | known _ _ _ hr => rw [hr]; exact hs
  | refused _ _ _ _ _ hr => rw [hr]; exact hs
  | adopted _ _ _ hr => obtain ⟨log, hr⟩ := hr; rw [hr]; exact adopt _ _

/-- what losing an identity and tying a whole to its part keep, a composition edge keeps -/
theorem keeps_compose (hs : P s) (release : ∀ part, P (s.modify part releaseIdentity))
    (bind : ∀ {s} whole part, P s → P (s.bind whole part)) : P (s.compose e).session := by
  cases s.composes e with
  | unresolved _ hr => rw [hr]; exact hs
  | first _ _ hr => rw [hr]; exact bind _ _ hs
  | refused _ _ _ hr => rw [hr]; exact hs
  | again _ _ _ hr => obtain ⟨log, hr⟩ := hr; rw [hr]; exact bind _ _ (release _)

/-- what tying two classes keeps, directly or through a third, every other edge keeps -/
theorem keeps_relate (hs : P s) (join : ∀ source target, P (s.joinEdge e source target))
    (joinClass : ∀ {s} endpoint assoc, P s → P (s.joinClass endpoint assoc)) : P (s.relate e).session := by
  cases s.relates e with
  | other _ hr => rw [hr]; exact hs
  | unresolved _ _ hr => rw [hr]; exact hs
  | direct _ _ _ hr => obtain ⟨log, hr⟩ := hr; rw [hr]; exact join _ _
  | through _ _ _ hr => rw [hr]; exact joinClass _ _ (joinClass _ _ hs)

end

theorem map_modify {β : Type} {g : Entity → β} (name : String) {f : Entity → Entity} (h : ∀ e, g (f e) = g e) :
    (s.modify name f).entities.map g = s.entities.map g := by
  unfold modify
  rw [List.map_map]
  refine List.map_congr_left fun e _ => ?_
  rw [Function.comp_apply]
  split
  · exact h e
  · rfl

section

-- what looks neither at the entities nor at the numbers sees nothing of the edges outside hierarchies
variable {β : Type} {g : Session → β} (hg : ∀ (s : Session) es n, g { s with entities := es, numbering := n } = g s)

include hg

theorem unseen_placeAll (ps : List Placed) : g (s.placeAll ps) = g s := by
  induction ps generalizing s with
  | nil => rfl
  | cons p rest ih => exact (ih (s.place p)).trans (hg s _ _)

theorem unseen_compose : g (s.compose e).session = g s :=
  keeps_compose (P := fun t => g t = g s) rfl (fun _ => hg s _ _) fun {t} _ _ ht =>
    ((unseen_placeAll _ hg _).trans (hg t _ _)).trans ht

theorem unseen_relate : g (s.relate e).session = g s :=
  keeps_relate (P := fun t => g t = g s) rfl (fun _ _ => (unseen_placeAll _ hg _).trans (hg s _ _)) fun {t} _ _ ht =>
    ((unseen_placeAll _ hg _).trans (hg t _ _)).trans ht

end

theorem names_step (c : Call) : (s.step c).session.names = s.names := by
  cases c with
  | apply => rfl
  | inherit e => exact keeps_inherit (P := fun t => t.names = s.names) rfl fun _ _ => rfl
  | compose e => exact unseen_compose s e (g := Session.names) fun _ _ _ => rfl
  | relate e => exact unseen_relate s e (g := Session.names) fun _ _ _ => rfl

end Session

end Classwright
