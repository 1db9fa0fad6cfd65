/-
The directories of the packages beneath an empty root.

Making them adds directories on the way to the root and below it, and nothing else. Below a directory that stands, a look
tells what stands at a place.

- `Disk.Vacant`: a root beneath which nothing is;
- `Disk.look_below`: what a look below a directory tells;
- `Work.widened_toward`, `packages_made`: the directories that come.
-/
import Classwright.Java.Artifact
import Classwright.Proofs.Writes

namespace Classwright

/-- a root that is reached as its path is written, or over a way that can be gone, with nothing beneath it -/
structure Disk.Vacant (d : Disk) (root : Path) : Prop where
  way : ".." ∉ root.parts ∨ ∃ q, d.walk (d.origin root) root.parts = .ok q
  empty : ∀ names, names ≠ [] → d.get? (d.placeOf root ++ names) = none

namespace Disk

variable {d d' : Disk} {root : Path} {q r : Place} {names : List String}

/-- a path to something below a root leads to the root first -/
theorem Holding.of_below (h : d.Holding (root.below names) q .dir) (hne : names ≠ []) :
    d.Holding root (d.placeOf root) .dir := by
  obtain ⟨hnull, hlocate, -⟩ := h
  have hshort := (Path.short_iff _).1 (usable_of_locate hnull hlocate).short
  have hbelow : d.walk (d.origin root) (root.parts ++ names) = .ok q := by
    unfold locate at hlocate
    split_ifs at hlocate
    exact hlocate
  rw [walk_append] at hbelow
  cases hwalk : d.walk (d.origin root) root.parts with
  | error cause => rw [hwalk] at hbelow; cases hbelow
  | ok place =>
    rw [hwalk] at hbelow
    obtain ⟨name, rest, rfl⟩ := List.exists_cons_of_ne_nil hne
    refine ⟨?_, ?_, ?_⟩
    · unfold Work.hasNull Path.below at hnull
      rw [List.any_append, Bool.or_eq_false_iff] at hnull
      exact hnull.1
    · have hlength := Text.utf8ByteSize_joinWith_le root.parts (name :: rest)
      unfold locate
      rw [if_neg (Nat.not_lt.2 ((Path.short_iff root).2 (le_trans (Nat.add_le_add_left hlength _) hshort))), hwalk,
        walk_eq_resolve hwalk]
      rfl
    · rw [placeOf, ← walk_eq_resolve hwalk]
      exact dir_of_walk hbelow

theorem Holding.mono (hhere : d'.here = d.here) (hdirs : ∀ q, d.get? q = some .dir → d'.get? q = some .dir)
    (h : d.Holding root r .dir) : d'.Holding root r .dir := ⟨h.1, locate_mono hhere hdirs h.2.1, hdirs r h.2.2⟩

/-- what a look below a directory tells, if it tells anything, is what stands there -/
theorem look_below (htree : d.Tree) (hroot : d.Holding root r .dir) (hnull : Work.hasNull ⟨"", names⟩ = false)
    (hdown : ".." ∉ names) (hshort : ∀ name ∈ names, name.utf8ByteSize ≤ nameLimit) {f : Option Entry → Bool}
    {b : Bool} (hlook : (d.sight (root.below names)).map f = .ok b) : b = f (d.get? (r ++ names)) := by
  have hnull' : Work.hasNull (root.below names) = false := by
    have hfront := hroot.1
    unfold Work.hasNull at hfront hnull ⊢
    rw [Path.below, List.any_append, hfront, hnull]
    rfl
  unfold sight at hlook
  rw [hnull', if_neg Bool.false_ne_true] at hlook
  cases hentry : d.get? (r ++ names) with
  | none =>
    cases hlocate : d.locate (root.below names) with
    | ok q =>
      obtain rfl : q = r ++ names := by
        rw [placeOf_of_locate hlocate, placeOf_below d root hdown, hroot.stands.placeOf]
      rw [hlocate] at hlook
      exact (Except.ok.inj hlook).symm.trans (by rw [hentry])
    | error cause =>
      rw [hlocate] at hlook
      cases cause <;> cases hlook <;> rfl
  | some e =>
    -- what stands there stands in directories, so the way can be gone
    have hwalk : d.walk r names = .ok (r ++ names) := by
      refine walk_of_dirs hdown hshort fun front hfront hne => ?_
      exact htree.dir_of_prefix ((List.prefix_append_right_inj r).2 hfront) (fun heq => hne (List.append_cancel_left heq)) hentry
    have hlocate : d.locate (root.below names) = .error .nameTooLong ∨ d.locate (root.below names) = .ok (r ++ names) := by
      unfold locate
      split_ifs
      · exact Or.inl rfl
      · refine Or.inr ?_
        show d.walk (d.origin root) (root.parts ++ names) = _
        rw [walk_append, hroot.stands.walk]
        exact hwalk
    rcases hlocate with hlong | hlocate
    · rw [hlong] at hlook
      cases hlook
    · rw [hlocate] at hlook
      exact (Except.ok.inj hlook).symm.trans (by rw [hentry])

end Disk

namespace Work

open Disk (Widened)

variable {root : Path} {w w' : World} {names : List String}

/-- directories below a root that need not be there: they come on the way down to it, or below it -/
theorem widened_toward (hway : ".." ∉ root.parts ∨ ∃ q, w.disk.walk (w.disk.origin root) root.parts = .ok q)
    (hdown : ".." ∉ names) :
    Widened (fun q => q <+: w.disk.placeOf root ∨ OnWay (w.disk.placeOf root) names q) w.disk
      (makeDirs (root.below names) w).2.disk := by
  have hwidened := widened_makeDirs (root.below names) w
  refine ⟨hwidened.here, fun q => (hwidened.entry q).imp id ?_⟩
  rintro ⟨⟨front, hfront, hq⟩, hnone, hdir⟩
  refine ⟨?_, hnone, hdir⟩
  change q = Path.resolve (w.disk.origin root) front at hq
  rcases Path.prefix_append_cases hfront with habove | ⟨back, hback, rfl⟩
  · left
    rcases hway with hplain | ⟨place, hwalk⟩
    · rw [hq, Disk.placeOf, Path.resolve_of_not_mem hplain,
        Path.resolve_of_not_mem fun hmem => hplain (habove.subset hmem)]
      exact (List.prefix_append_right_inj _).2 habove
    · obtain ⟨back, hback⟩ := habove
      cases back with
      | nil =>
        rw [List.append_nil] at hback
        rw [hq, hback]
        exact List.prefix_refl _
      | cons name rest =>
        rw [← hback, Disk.walk_append] at hwalk
        cases hmid : w.disk.walk (w.disk.origin root) front with
        | error cause => rw [hmid] at hwalk; cases hwalk
        | ok mid =>
          rw [hmid] at hwalk
          rw [hq, ← Disk.walk_eq_resolve hmid, Disk.dir_of_walk hwalk] at hnone
          cases hnone
  · right
    have hback' : ".." ∉ back := fun hmem => hdown (hback.subset hmem)
    exact ⟨back, hback, by rw [hq, Path.resolve_append, Path.resolve_of_not_mem hback', Disk.placeOf]⟩

/-- **The directories of the packages are made**, and those on the way to them. -/
theorem packages_made {dirs : List Path} (hdirs : ∀ dir ∈ dirs, dir.isAbsolute = false ∧ dir.parts ≠ [] ∧ ".." ∉ dir.parts)
    (hway : ".." ∉ root.parts ∨ ∃ q, w.disk.walk (w.disk.origin root) root.parts = .ok q) (htree : w.disk.Tree)
    (h : dirs.forM (fun dir => makeDirs (root.join dir)) w = (.ok (), w')) :
    Widened (fun q => q <+: w.disk.placeOf root ∨ ∃ dir ∈ dirs, OnWay (w.disk.placeOf root) dir.parts q) w.disk w'.disk ∧
      w'.disk.Tree ∧ (dirs ≠ [] → w'.disk.Holding root (w.disk.placeOf root) .dir) := by
  induction dirs generalizing w with
  | nil =>
    cases h
    exact ⟨Widened.refl _ _, htree, fun hne => absurd rfl hne⟩
  | cons dir rest ih =>
    obtain ⟨_, w₁, hmade, h⟩ := Work.bind_eq_ok h
    obtain ⟨hrelative, hne, hdown⟩ := hdirs dir List.mem_cons_self
    have hjoin : root.join dir = root.below dir.parts := by
      unfold Path.join
      rw [hrelative, if_neg Bool.false_ne_true]
      rfl
    change makeDirs (root.join dir) w = (.ok (), w₁) at hmade
    rw [hjoin] at hmade
    have hwidened := widened_toward hway hdown
    have htree₁ := tree_makeDirs (root.below dir.parts) w htree
    rw [hmade] at hwidened htree₁
    have hdirs₁ : ∀ q, w.disk.get? q = some .dir → w₁.disk.get? q = some .dir := fun q hq => hwidened.get? hq
    have hway₁ : ".." ∉ root.parts ∨ ∃ q, w₁.disk.walk (w₁.disk.origin root) root.parts = .ok q := by
      rw [Disk.origin_congr hwidened.here]
      exact hway.imp id fun ⟨q, hwalk⟩ => ⟨q, Disk.walk_mono hdirs₁ hwalk⟩
    obtain ⟨hrest, htree', -⟩ := ih (fun d hd => hdirs d (List.mem_cons_of_mem dir hd)) hway₁ htree₁ h
    rw [Disk.placeOf_congr hwidened.here root] at hrest
    refine ⟨(hwidened.mono fun q hq => ?_).trans (hrest.mono fun q hq => ?_), htree', fun _ => ?_⟩
    · exact hq.imp id fun hway => ⟨dir, List.mem_cons_self, hway⟩
    · exact hq.imp id fun ⟨d, hd, hway⟩ => ⟨d, List.mem_cons_of_mem dir hd, hway⟩
    · obtain ⟨q, hholding⟩ := holding_of_makeDirs hmade
      have hroot := hholding.of_below hne
      rw [Disk.placeOf_congr hwidened.here root] at hroot
      exact hroot.mono hrest.here fun q hq => hrest.get? hq

end Work

end Classwright
