/-
Files and the times of their last change.

The time of a directory changes whenever something comes into it, that of a file only when the file itself is written. So
what work does to the files on a disk and their times is told without regard to directories.

- `Disk.fileAt?`, `stampAt?`: the content of the file at a place, and with it the time of its last change;
- `Disk.stampAt?_put_of_ne`: what is put somewhere changes no file elsewhere;
- `Disk.Settled`: only times of directories changed; `Work.settled_settleDir`: all that settling a directory does;
- `Disk.SameClock`: time stands still; `Work.sameClock_save`, `sameClock_copyFile`, `sameClock_copyTree`: it does during
  work on files.
-/
import Classwright.Proofs.Looks
import Classwright.Proofs.Tables

namespace Classwright

namespace Disk

variable {d d' d'' : Disk} {p q : Place} {e : Entry} {c : ByteArray} {time : Int}

/-- the content of the file at a place -/
def fileAt? (d : Disk) (q : Place) : Option ByteArray :=
  match d.get? q with
  | some (.file content _) => some content
  | _ => none

theorem fileAt?_eq_some_iff : d.fileAt? q = some c ↔ ∃ mode, d.get? q = some (.file c mode) := by
  unfold fileAt?
  cases d.get? q with
  | none => simp
  | some e => cases e <;> simp

theorem fileAt?_of_dir (h : d.get? q = some .dir) : d.fileAt? q = none := by
  rw [fileAt?, h]

theorem fileAt?_congr (h : d'.get? q = d.get? q) : d'.fileAt? q = d.fileAt? q := by
  rw [fileAt?, h, fileAt?]

theorem ne_nil_of_get? (h : d.get? q ≠ some .dir) : q ≠ [] := by
  rintro rfl
  exact h rfl

/-! ## Files with their times -/

/-- the content of the file at a place and the time of its last change -/
def stampAt? (d : Disk) (q : Place) : Option (ByteArray × Int) := (d.fileAt? q).map fun content => (content, d.timeOf q)

theorem stampAt?_eq_some_iff {s : ByteArray × Int} : d.stampAt? q = some s ↔ d.fileAt? q = some s.1 ∧ d.timeOf q = s.2 := by
  obtain ⟨content, time⟩ := s
  simp [stampAt?]

theorem fileAt?_eq_some_iff_stamped : d.fileAt? q = some c ↔ ∃ time, d.stampAt? q = some (c, time) := by
  simp [stampAt?_eq_some_iff]

theorem map_fst_stampAt? (d : Disk) (q : Place) : (d.stampAt? q).map Prod.fst = d.fileAt? q := by
  unfold stampAt?
  cases d.fileAt? q <;> rfl

theorem fileAt?_of_stampAt? (h : d'.stampAt? q = d.stampAt? q) : d'.fileAt? q = d.fileAt? q := by
  rw [← map_fst_stampAt?, h, map_fst_stampAt?]

theorem stampAt?_of_dir (h : d.get? q = some .dir) : d.stampAt? q = none := by
  rw [stampAt?, fileAt?_of_dir h, Option.map_none]

theorem stampAt?_congr (h : d'.get? q = d.get? q) (htime : d'.timeOf q = d.timeOf q) : d'.stampAt? q = d.stampAt? q := by
  rw [stampAt?, fileAt?_congr h, htime, stampAt?]

/-- where the same stands as before, a file that kept its time is all that has to be looked at -/
theorem stampAt?_of_kept (hget : d'.get? q = d.get? q) (hkept : ∀ s, d.stampAt? q = some s → d'.stampAt? q = some s) :
    d'.stampAt? q = d.stampAt? q := by
  cases hs : d.stampAt? q with
  | some s => exact hkept s hs
  | none =>
    have hnone : d'.fileAt? q = none := by rw [fileAt?_congr hget, ← map_fst_stampAt?, hs, Option.map_none]
    rw [stampAt?, hnone, Option.map_none]

/-- what is put at a place changes no file elsewhere: it changes the time of its directory at most -/
theorem stampAt?_put_of_ne (hne : p ≠ q) (h : d.get? p ≠ none ∨ d.get? p.dropLast = some .dir) :
    (d.put p e).stampAt? q = d.stampAt? q := by
  have hget := get?_put_of_ne d e hne
  by_cases hdir : p.dropLast = q
  · rcases h with hthere | habove
    · -- something was there before, so the directory does not change
      have hnil : p ≠ [] := fun hnil => hne (by rw [← hdir, hnil]; rfl)
      have hhas : Table.has d.items p = true := by
        rw [get?, if_neg hnil] at hthere
        rw [Table.has, Option.isSome_iff_ne_none]
        exact fun hnone => hthere (by rw [hnone, Option.map_none])
      refine stampAt?_congr hget ?_
      rw [put, if_pos hhas, timeOf, set, Table.get?_set_of_ne _ _ hne, timeOf]
    · rw [hdir] at habove
      rw [stampAt?_of_dir habove, stampAt?_of_dir (hget.trans habove)]
  · exact stampAt?_congr hget (timeOf_put_of_ne d e hne hdir)

/-- a new directory changes no file at all -/
theorem stampAt?_put_dir (h : d.get? p = none) (habove : d.get? p.dropLast = some .dir) (q : Place) :
    (d.put p .dir).stampAt? q = d.stampAt? q := by
  by_cases hq : p = q
  · subst hq
    have hnil : p ≠ [] := ne_nil_of_get? (by rw [h]; nofun)
    rw [stampAt?_of_dir (get?_put_self d .dir hnil), stampAt?, fileAt?, h]
    rfl
  · exact stampAt?_put_of_ne hq (Or.inr habove)

theorem keys_setTime (d : Disk) (q : Place) (time : Int) : Table.keys (d.setTime q time).items = Table.keys d.items := by
  unfold setTime
  cases hq : Table.get? d.items q with
  | none => rfl
  | some s =>
    have hmem : q ∈ Table.keys d.items := (Table.isSome_get?_iff _ _).1 (by rw [hq]; rfl)
    show Table.keys (Table.set d.items q _) = _
    rw [Table.keys_set, if_pos hmem]

theorem keys_touch (d : Disk) (q : Place) : Table.keys (d.touch q).items = Table.keys d.items := keys_setTime d q d.now

theorem timeOf_setTime_self (h : d.get? q ≠ none) (hnil : q ≠ []) : (d.setTime q time).timeOf q = time := by
  rw [get?, if_neg hnil] at h
  unfold setTime timeOf
  cases hq : Table.get? d.items q with
  | none => exact absurd (by rw [hq, Option.map_none]) h
  | some s =>
    rw [Table.get?_set_self]
    rfl

/-! ## Times of directories -/

/-- only times of directories changed -/
structure Settled (d d' : Disk) : Prop where
  here : d'.here = d.here
  keys : Table.keys d'.items = Table.keys d.items
  entry : ∀ q, d'.get? q = d.get? q
  stamp : ∀ q, d'.stampAt? q = d.stampAt? q

namespace Settled

theorem refl (d : Disk) : Settled d d := ⟨rfl, rfl, fun _ => rfl, fun _ => rfl⟩

theorem trans (h : Settled d d') (h' : Settled d' d'') : Settled d d'' where
  here := h'.here.trans h.here
  keys := h'.keys.trans h.keys
  entry := fun q => (h'.entry q).trans (h.entry q)
  stamp := fun q => (h'.stamp q).trans (h.stamp q)

theorem setTime (hdir : d.get? p = some .dir) (time : Int) : Settled d (d.setTime p time) where
  here := here_setTime d p time
  keys := keys_setTime d p time
  entry := get?_setTime d p time
  stamp := by
    intro q
    by_cases hq : p = q
    · subst hq
      rw [stampAt?_of_dir hdir, stampAt?_of_dir ((get?_setTime d p time p).trans hdir)]
    · exact stampAt?_congr (get?_setTime d p time q) (timeOf_setTime_of_ne d time hq)

end Settled

/-! ## Clocks -/

/-- time stands still, and the clocks are what they were -/
structure SameClock (d d' : Disk) : Prop where
  now : d'.now = d.now
  zone : d'.zone = d.zone

namespace SameClock

theorem refl (d : Disk) : SameClock d d := ⟨rfl, rfl⟩

theorem trans (h : SameClock d d') (h' : SameClock d' d'') : SameClock d d'' := ⟨h'.now.trans h.now, h'.zone.trans h.zone⟩

theorem clock (h : SameClock d d') (time : Int) : d'.clock time = d.clock time := by
  rw [Disk.clock, h.zone, Disk.clock]

theorem setTime (d : Disk) (q : Place) (time : Int) : SameClock d (d.setTime q time) := by
  unfold Disk.setTime
  split <;> exact ⟨rfl, rfl⟩

theorem put (d : Disk) (q : Place) (e : Entry) : SameClock d (d.put q e) := by
  have hset : SameClock d (d.set q e) := ⟨rfl, rfl⟩
  unfold Disk.put
  split
  · exact hset
  · exact hset.trans (setTime _ _ _)

end SameClock

end Disk

namespace Work

open Disk (SameClock Settled)

/-! ## What work does to times -/

theorem allows_settled : Allows Settled := ⟨Settled.refl, Settled.trans⟩

theorem allows_sameClock : Allows SameClock := ⟨SameClock.refl, SameClock.trans⟩

theorem allows_stamps : Allows fun d d' => ∀ q, d'.stampAt? q = d.stampAt? q :=
  ⟨fun _ _ => rfl, fun h h' q => (h' q).trans (h q)⟩

/-- making directories changes no file -/
theorem stampAt?_makeDirs (p : Path) : Changes (fun d d' => ∀ q, d'.stampAt? q = d.stampAt? q) (makeDirs p) :=
  allows_stamps.makeDirs fun _ _ _ _ _ hnone habove => Disk.stampAt?_put_dir hnone habove

theorem settled_copyTime {source target : Path} {w : World} {q : Place} (h : w.disk.Holding target q .dir) :
    Settled w.disk (copyTime source target w).2.disk := by
  have hsource := locate_eq source w
  unfold copyTime
  cases hplace : place w.disk source with
  | error f =>
    rw [hplace] at hsource
    rw [bind_error hsource]
    exact Settled.refl w.disk
  | ok p =>
    rw [hplace] at hsource
    rw [bind_ok hsource, bind_ok (locate_of_holding h)]
    exact .setTime h.2.2 _

/-- **Settling a directory** changes the times of directories only. -/
theorem settled_settleDir (source target : Path) (names : List String) : Changes Settled (settleDir source target names) := by
  refine allows_settled.bind (show Changes Settled (attempt _) from ?_) fun _ => allows_settled.still (still_pure ())
  refine allows_settled.still_bind (still_isDir _) fun w b hb => ?_
  cases b with
  | false => exact Settled.refl w.disk
  | true =>
    obtain ⟨q, e, hholding, hdir⟩ := isDir_iff.1 hb
    cases e <;> cases hdir
    exact settled_copyTime hholding

theorem settled_settleDirs (source target : Path) (dirs : List (List String)) :
    Changes Settled (dirs.forM (settleDir source target)) :=
  allows_settled.forM fun names _ => settled_settleDir source target names

/-! ## Work that takes no time -/

theorem sameClock_makeDirs (p : Path) : Changes SameClock (makeDirs p) :=
  allows_sameClock.makeDirs fun _ _ d q _ _ _ => .put d q .dir

theorem sameClock_save (p : Path) (c : ByteArray) : Changes SameClock (save p c) :=
  allows_sameClock.save (fun d q e _ => .put d q e) c

theorem sameClock_setMode (p : Path) (mode : Nat) : Changes SameClock (setMode p mode) := by
  refine allows_sameClock.still_bind (still_locate p) fun w q _ => ?_
  refine allows_sameClock.still_bind still_disk (fun w d hd => ?_) w
  cases hd
  rcases w.disk.get? q with _ | _ | _ | _ <;> exact ⟨rfl, rfl⟩

theorem sameClock_copyTime (source target : Path) : Changes SameClock (copyTime source target) := by
  refine allows_sameClock.still_bind (still_locate source) fun w p _ => ?_
  refine allows_sameClock.still_bind (still_locate target) (fun w q _ => ?_) w
  exact .setTime w.disk q _

theorem sameClock_copyFile (source target : Path) : Changes SameClock (copyFile source target) := by
  refine allows_sameClock.bind (allows_sameClock.still (still_isDir target)) fun into => ?_
  refine allows_sameClock.bind (allows_sameClock.bind (allows_sameClock.still (still_read source)) fun _ =>
    sameClock_save _ _) fun _ => ?_
  refine allows_sameClock.bind (sameClock_copyTime _ _) fun _ => ?_
  refine allows_sameClock.bind (allows_sameClock.still (still_entryAt? source)) fun e => ?_
  split
  · exact sameClock_setMode _ _
  · exact allows_sameClock.still (still_pure ())

theorem sameClock_copyPart (source target : Path) (part : List String × Entry) :
    Changes SameClock (copyPart source target part) := by
  refine allows_sameClock.bind (show Changes SameClock (attempt _) from ?_) fun r => ?_
  · split
    · exact sameClock_makeDirs _
    · exact sameClock_copyFile _ _
  · cases r <;> exact allows_sameClock.still (still_pure _)

theorem sameClock_copyParts (source target : Path) (parts : List (List String × Entry)) :
    Changes SameClock (copyParts source target parts) := by
  induction parts with
  | nil => exact allows_sameClock.still (still_pure true)
  | cons part rest ih =>
    exact allows_sameClock.bind (sameClock_copyPart source target part) fun _ =>
      allows_sameClock.bind ih fun _ => allows_sameClock.still (still_pure _)

theorem sameClock_settleDir (source target : Path) (names : List String) :
    Changes SameClock (settleDir source target names) := by
  refine allows_sameClock.bind (show Changes SameClock (attempt _) from ?_) fun _ => allows_sameClock.still (still_pure ())
  refine allows_sameClock.bind (allows_sameClock.still (still_isDir _)) fun there => ?_
  split
  · exact sameClock_copyTime _ _
  · exact allows_sameClock.still (still_pure ())

theorem sameClock_copyTree (source target : Path) : Changes SameClock (copyTree source target) := by
  refine allows_sameClock.bind (allows_sameClock.still (still_locate source)) fun q => ?_
  refine allows_sameClock.bind (allows_sameClock.still still_disk) fun d => ?_
  refine allows_sameClock.bind (sameClock_makeDirs target) fun _ => ?_
  refine allows_sameClock.bind (sameClock_copyParts source target _) fun all => ?_
  refine allows_sameClock.bind (allows_sameClock.forM fun names _ => sameClock_settleDir source target names) fun _ => ?_
  split
  · exact allows_sameClock.still (still_pure ())
  · exact allows_sameClock.still (still_fail _)

end Work

end Classwright
