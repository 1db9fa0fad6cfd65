/-
Looks at a path.

A look changes nothing, so what it tells is a matter of the disk alone. The steps that look are written here as what they
tell.

- `Disk.sight`: what a look at a path tells; `Work.entryAt?_eq`, `exists?_eq`, `isFile_eq`, `isDir_eq`: the steps that look;
- `Disk.Holding`: an entry stands at a path; `sight_eq_some_iff`: that is what a look tells when it finds something;
- `Work.look_iff`: what a look says of something that is there; `exists?_iff`, `isDir_iff`: its cases;
- `Work.place`, `locate_eq`: the place a path leads to; `locate_of_holding`: where something stands.
-/
import Classwright.Proofs.Frames

namespace Classwright

namespace Disk

/-- what a look at a path tells: an entry or nothing, unless the path is longer than a disk takes -/
def sight (d : Disk) (p : Path) : Except Fault (Option Entry) :=
  if Work.hasNull p then .ok none
  else
    match d.locate p with
    | .ok q => .ok (d.get? q)
    | .error .nameTooLong => .error (.disk ⟨.nameTooLong, p.toString⟩)
    | .error _ => .ok none

/-- an entry stands at the place a path leads to -/
def Holding (d : Disk) (p : Path) (q : Place) (e : Entry) : Prop :=
  Work.hasNull p = false ∧ d.locate p = .ok q ∧ d.get? q = some e

theorem sight_eq_some_iff {d : Disk} {p : Path} {e : Entry} : d.sight p = .ok (some e) ↔ ∃ q, d.Holding p q e := by
  unfold sight Holding
  cases hnull : Work.hasNull p with
  | true => simp
  | false =>
    rw [if_neg Bool.false_ne_true]
    cases hq : d.locate p with
    | ok q => simp
    | error cause => cases cause <;> simp

end Disk

namespace Work

variable {p : Path} {w : World}

theorem entryAt?_eq (p : Path) (w : World) : entryAt? p w = (w.disk.sight p, w) := by
  unfold entryAt? Disk.sight
  rw [bind_ok (show disk w = (.ok w.disk, w) from rfl)]
  split_ifs
  · rfl
  · split <;> simp_all <;> rfl

/-- a step that says something of what a look tells -/
theorem look_eq {f : Option Entry → Bool} {x : Work Bool} (h : x = entryAt? p >>= fun e => pure (f e)) (w : World) :
    x w = ((w.disk.sight p).map f, w) := by
  subst h
  have hentry := entryAt?_eq p w
  cases hsight : w.disk.sight p with
  | ok e =>
    rw [hsight] at hentry
    rw [bind_ok hentry]
    rfl
  | error f =>
    rw [hsight] at hentry
    rw [bind_error hentry]
    rfl

/-- a file or a directory, not a link that leads nowhere -/
def seen : Option Entry → Bool
  | some (.file ..) | some .dir => true
  | _ => false

theorem exists?_eq (p : Path) (w : World) : exists? p w = ((w.disk.sight p).map seen, w) := by
  refine look_eq ?_ w
  unfold exists?
  congr 1
  funext e
  cases e with
  | none => rfl
  | some e => cases e <;> rfl

theorem isFile_eq (p : Path) (w : World) :
    isFile p w = ((w.disk.sight p).map fun e => (e.map Entry.isFile).getD false, w) := look_eq rfl w

theorem isDir_eq (p : Path) (w : World) :
    isDir p w = ((w.disk.sight p).map fun e => (e.map Entry.isDir).getD false, w) := look_eq rfl w

/-- what a look says of something that is there -/
theorem look_iff {f : Option Entry → Bool} (hnone : f none = false) {d : Disk} :
    (d.sight p).map f = .ok true ↔ ∃ q e, d.Holding p q e ∧ f (some e) = true := by
  constructor
  · intro h
    cases hsight : d.sight p with
    | error fault => rw [hsight] at h; cases h
    | ok e =>
      rw [hsight] at h
      have hfound : f e = true := Except.ok.inj h
      cases e with
      | none => rw [hnone] at hfound; cases hfound
      | some e =>
        obtain ⟨q, hq⟩ := Disk.sight_eq_some_iff.1 hsight
        exact ⟨q, e, hq, hfound⟩
  · rintro ⟨q, e, hq, hfound⟩
    rw [Disk.sight_eq_some_iff.2 ⟨q, hq⟩]
    exact congrArg Except.ok hfound

theorem exists?_iff : (exists? p w).1 = .ok true ↔ ∃ q e, w.disk.Holding p q e ∧ seen (some e) = true := by
  rw [exists?_eq]
  exact look_iff rfl

theorem isDir_iff : (isDir p w).1 = .ok true ↔ ∃ q e, w.disk.Holding p q e ∧ e.isDir = true := by
  rw [isDir_eq]
  exact look_iff rfl

/-! ## Places -/

/-- the place a path leads to, or why it leads nowhere -/
def place (d : Disk) (p : Path) : Except Fault Place :=
  if hasNull p then .error (.badValue "embedded null byte")
  else
    match d.locate p with
    | .ok q => .ok q
    | .error cause => .error (.disk ⟨cause, p.toString⟩)

theorem locate_eq (p : Path) (w : World) : locate p w = (place w.disk p, w) := by
  unfold locate place
  split_ifs
  · rfl
  · rw [bind_ok (show disk w = (.ok w.disk, w) from rfl)]
    cases w.disk.locate p <;> rfl

theorem place_eq_ok_iff {d : Disk} {q : Place} : place d p = .ok q ↔ hasNull p = false ∧ d.locate p = .ok q := by
  unfold place
  cases hasNull p with
  | true => simp
  | false =>
    rw [if_neg Bool.false_ne_true]
    cases d.locate p <;> simp

theorem place_of_holding {d : Disk} {q : Place} {e : Entry} (h : d.Holding p q e) : place d p = .ok q :=
  place_eq_ok_iff.2 ⟨h.1, h.2.1⟩

theorem locate_of_holding {q : Place} {e : Entry} (h : w.disk.Holding p q e) : locate p w = (.ok q, w) := by
  rw [locate_eq, place_of_holding h]

/-! ## Steps that only pass on -/

theorem still_exists? (p : Path) : Still (exists? p) := fun w => by rw [exists?_eq]

theorem still_isFile (p : Path) : Still (isFile p) := fun w => by rw [isFile_eq]

theorem still_read (p : Path) : Still (read p) := by
  refine (still_locate p).bind fun q => still_disk.bind fun d => ?_
  split
  · exact still_pure _
  · exact still_fail _
  · exact still_fail _

theorem still_filesUnder (p : Path) : Still (filesUnder p) :=
  (still_locate p).bind fun _ => still_disk.bind fun _ => still_pure _

theorem still_ofExcept {α : Type} (r : Except Fault α) : Still (ofExcept r) := by
  cases r with
  | ok a => exact still_pure a
  | error f => exact still_fail f

end Work

end Classwright
