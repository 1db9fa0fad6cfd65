/-
What work on a disk leaves alone.

- `Disk.walk_eq_resolve`: a way that can be gone leads where its names lead;
- `Work.Changes`: a step that changes the disk, whatever comes of it, in a way that a relation allows; `Work.Allows`: such
  relations, and what they allow: steps in sequence (`Allows.bind`, `Allows.foldlM`), new directories (`Allows.makeDirs`),
  a file that is written (`Allows.save`);
- `Disk.FilesKept`: the files at some places are the same before and after; `Work.Keeps`: a step keeps them;
- `Work.keeps_makeDirs`: making directories keeps every file; `Work.keeps_save`: writing a file keeps all others.
-/
import Mathlib.Data.List.Infix
import Classwright.Disk.Work
import Classwright.Proofs.Paths

namespace Classwright

namespace Disk

theorem walk_eq_resolve {d : Disk} {p q : Place} {names : List String} (h : d.walk p names = .ok q) :
    q = Path.resolve p names := by
  induction names generalizing p with
  | nil => cases h; rfl
  | cons name rest ih =>
    rw [walk] at h
    split at h
    · cases h
    · show q = Path.resolve (Path.walk p name) rest
      split_ifs at h with hup hlong
      · rw [Path.walk, if_pos hup]
        exact ih h
      · rw [Path.walk, if_neg hup]
        exact ih h

theorem locate_eq_resolve {d : Disk} {p : Path} {q : Place} (h : d.locate p = .ok q) :
    q = Path.resolve (d.origin p) p.parts := by
  unfold locate at h
  split_ifs at h
  exact walk_eq_resolve h

theorem here_setTime (d : Disk) (p : Place) (time : Int) : (d.setTime p time).here = d.here := by
  unfold setTime
  split <;> rfl

theorem here_touch (d : Disk) (p : Place) : (d.touch p).here = d.here := here_setTime d p d.now

theorem here_put (d : Disk) (p : Place) (e : Entry) : (d.put p e).here = d.here := by
  unfold put
  split
  · rfl
  · exact here_touch _ _

/-- the files at the places of `S` are the same, and relative paths start at the same place -/
structure FilesKept (S : Place → Prop) (d d' : Disk) : Prop where
  here : d'.here = d.here
  files : ∀ q, S q → ∀ content mode, d'.get? q = some (.file content mode) ↔ d.get? q = some (.file content mode)

namespace FilesKept

variable {S : Place → Prop} {d d' d'' : Disk}

theorem refl (S : Place → Prop) (d : Disk) : FilesKept S d d := ⟨rfl, fun _ _ _ _ => Iff.rfl⟩

theorem trans (h : FilesKept S d d') (h' : FilesKept S d' d'') : FilesKept S d d'' :=
  ⟨h'.here.trans h.here, fun q hq c m => (h'.files q hq c m).trans (h.files q hq c m)⟩

theorem put_dir {q : Place} (h : d.hasEntry q = false) : FilesKept S d (d.put q .dir) := by
  have hnone : d.get? q = none := by simpa [hasEntry] using h
  have hne : q ≠ [] := by
    rintro rfl
    simp [get?] at hnone
  refine ⟨here_put d q .dir, fun r _ content mode => ?_⟩
  by_cases hr : q = r
  · rw [← hr, get?_put_self d .dir hne, hnone]
    constructor
    · intro h
      injection h with h
      cases h
    · intro h
      cases h
  · rw [get?_put_of_ne d .dir hr]

theorem put_of_not {q : Place} (h : ¬ S q) (e : Entry) : FilesKept S d (d.put q e) := by
  refine ⟨here_put d q e, fun r hr content mode => ?_⟩
  have hne : q ≠ r := fun heq => h (heq ▸ hr)
  rw [get?_put_of_ne d e hne]

end FilesKept

end Disk

namespace Work

open Disk (FilesKept)

variable {α β : Type}

/-! ## Steps that only look -/

/-- a step that changes nothing -/
def Still (x : Work α) : Prop := ∀ w, (x w).2 = w

theorem still_pure (a : α) : Still (pure a) := fun _ => rfl

theorem still_fail (f : Fault) : Still (fail f : Work α) := fun _ => rfl

theorem still_disk : Still disk := fun _ => rfl

theorem bind_ok {x : Work α} {w w' : World} {a : α} (h : x w = (.ok a, w')) (f : α → Work β) :
    (x >>= f) w = f a w' := by
  simp only [bind, h]

theorem bind_error {x : Work α} {w w' : World} {e : Fault} (h : x w = (.error e, w')) (f : α → Work β) :
    (x >>= f) w = (.error e, w') := by
  simp only [bind, h]

/-- what came before an answer was an answer, too -/
theorem bind_eq_ok {x : Work α} {f : α → Work β} {w w' : World} {b : β} (h : (x >>= f) w = (.ok b, w')) :
    ∃ a w₁, x w = (.ok a, w₁) ∧ f a w₁ = (.ok b, w') := by
  rcases hr : x w with ⟨r, w₁⟩
  cases r with
  | ok a => exact ⟨a, w₁, rfl, (bind_ok hr f).symm.trans h⟩
  | error e => cases (bind_error hr f).symm.trans h

/-- what a step that only looks has seen -/
theorem Still.bind_eq_ok {x : Work α} (hx : Still x) {f : α → Work β} {w w' : World} {b : β}
    (h : (x >>= f) w = (.ok b, w')) : ∃ a, x w = (.ok a, w) ∧ f a w = (.ok b, w') := by
  obtain ⟨a, w₁, ha, hf⟩ := Work.bind_eq_ok h
  have hsame := hx w
  rw [ha] at hsame
  obtain rfl : w₁ = w := hsame
  exact ⟨a, ha, hf⟩

theorem Still.bind {x : Work α} {f : α → Work β} (hx : Still x) (hf : ∀ a, Still (f a)) : Still (x >>= f) := by
  intro w
  have hw := hx w
  rcases hr : x w with ⟨r, w'⟩
  rw [hr] at hw
  cases r with
  | ok a =>
    rw [bind_ok hr]
    exact (hf a w').trans hw
  | error e =>
    rw [bind_error hr]
    exact hw

theorem still_locate (p : Path) : Still (locate p) := by
  unfold locate
  split
  · exact still_fail _
  · refine still_disk.bind fun d => ?_
    split
    · exact still_pure _
    · exact still_fail _

theorem still_entryAt? (p : Path) : Still (entryAt? p) := by
  refine still_disk.bind fun d => ?_
  split
  · exact still_pure _
  · split
    · exact still_pure _
    · exact still_fail _
    · exact still_pure _

theorem still_isDir (p : Path) : Still (isDir p) := (still_entryAt? p).bind fun _ => still_pure _

theorem locate_ok {p : Path} {w : World} {q : Place} (h : (locate p w).1 = .ok q) : w.disk.locate p = .ok q := by
  unfold locate at h
  split at h
  · cases h
  · rw [bind_ok (show disk w = (.ok w.disk, w) from rfl)] at h
    cases hl : w.disk.locate p with
    | ok q' => rw [hl] at h; cases h; rfl
    | error cause => rw [hl] at h; cases h

theorem parentCause_eq_none_iff {d : Disk} {q : Place} : parentCause d q = none ↔ d.get? q.dropLast = some .dir := by
  unfold parentCause Disk.enter
  split <;> simp_all

/-! ## Steps whose changes are of a kind -/

/-- a step that changes the disk, whatever comes of it, in a way that `R` allows -/
def Changes (R : Disk → Disk → Prop) (x : Work α) : Prop := ∀ w, R w.disk (x w).2.disk

theorem Changes.of_run {R : Disk → Disk → Prop} {x : Work α} (h : Changes R x) {w w' : World} {r : Except Fault α}
    (hrun : x w = (r, w')) : R w.disk w'.disk := by
  have hchange := h w
  rwa [hrun] at hchange

/-- `R` allows to change nothing, and changes in sequence -/
structure Allows (R : Disk → Disk → Prop) : Prop where
  refl : ∀ d, R d d
  trans : ∀ {d d' d''}, R d d' → R d' d'' → R d d''

/-- `R` allows a new directory at a path, where the one above stands -/
def MakesDir (R : Disk → Disk → Prop) (p : Path) : Prop :=
  ∀ d q, d.locate p = .ok q → d.get? q = none → d.get? q.dropLast = some .dir → R d (d.put q .dir)

namespace Allows

variable {R : Disk → Disk → Prop}

theorem still (hR : Allows R) {x : Work α} (h : Still x) : Changes R x := by
  intro w
  rw [h w]
  exact hR.refl w.disk

theorem bind (hR : Allows R) {x : Work α} {f : α → Work β} (hx : Changes R x) (hf : ∀ a, Changes R (f a)) :
    Changes R (x >>= f) := by
  intro w
  have hchange := hx w
  rcases hr : x w with ⟨r, w'⟩
  rw [hr] at hchange
  cases r with
  | ok a =>
    rw [bind_ok hr]
    exact hR.trans hchange (hf a w')
  | error e =>
    rw [bind_error hr]
    exact hchange

/-- after a step that only looks, the next one may rely on what was seen -/
theorem still_bind (hR : Allows R) {x : Work α} {f : α → Work β} (hx : Still x)
    (hf : ∀ w a, (x w).1 = .ok a → R w.disk (f a w).2.disk) : Changes R (x >>= f) := by
  intro w
  have hsame := hx w
  rcases hr : x w with ⟨r, w'⟩
  rw [hr] at hsame
  obtain rfl : w' = w := hsame
  cases r with
  | ok a =>
    rw [bind_ok hr]
    exact hf w' a (by rw [hr])
  | error e =>
    rw [bind_error hr]
    exact hR.refl w'.disk

theorem foldlM (hR : Allows R) {f : β → α → Work β} {xs : List α} (h : ∀ x ∈ xs, ∀ b, Changes R (f b x)) (b : β) :
    Changes R (xs.foldlM f b) := by
  induction xs generalizing b with
  | nil => exact hR.still (still_pure b)
  | cons x rest ih =>
    rw [List.foldlM_cons]
    exact hR.bind (h x List.mem_cons_self b) fun b' => ih (fun y hy => h y (List.mem_cons_of_mem _ hy)) b'

theorem forM (hR : Allows R) {f : α → Work Unit} {xs : List α} (h : ∀ x ∈ xs, Changes R (f x)) : Changes R (xs.forM f) := by
  induction xs with
  | nil => exact hR.still (still_pure ())
  | cons x rest ih =>
    exact hR.bind (h x List.mem_cons_self) fun _ => ih fun y hy => h y (List.mem_cons_of_mem _ hy)

theorem makeDir (hR : Allows R) {p : Path} (h : MakesDir R p) : Changes R (makeDir p) := by
  refine hR.still_bind (still_locate p) fun w q hq => ?_
  rw [bind_ok (show disk w = (.ok w.disk, w) from rfl)]
  split
  · exact hR.refl w.disk
  · next hentry =>
    cases hcause : parentCause w.disk q with
    | some cause => exact hR.refl w.disk
    | none =>
      have hnone : w.disk.get? q = none := by simpa [Disk.hasEntry] using hentry
      exact h w.disk q (locate_ok hq) hnone (parentCause_eq_none_iff.1 hcause)

theorem ensureDir (hR : Allows R) {p : Path} (h : MakesDir R p) : Changes R (ensureDir p) := by
  refine hR.bind (show Changes R (attempt (Work.makeDir p)) from hR.makeDir h) fun r => ?_
  split
  · exact hR.still (still_pure _)
  · split
    · exact hR.still (still_fail _)
    · refine hR.bind (hR.still (still_isDir p)) fun b => ?_
      split
      · exact hR.still (still_pure _)
      · exact hR.still (still_fail _)
    · exact hR.still (still_fail _)

/-- directories are made at a path and at those it begins with -/
theorem makeDirs (hR : Allows R) {p : Path} (h : ∀ front, front <+: p.parts → MakesDir R ⟨p.root, front⟩) :
    Changes R (makeDirs p) := by
  have hup : ∀ names : List String, (∀ back, back <:+ names → MakesDir R ⟨p.root, back.reverse⟩) →
      Changes R (makeDirsUp p.root Work.ensureDir names) := by
    intro names
    induction names with
    | nil => exact fun hnames => hR.ensureDir (hnames [] (List.suffix_refl _))
    | cons name up ih =>
      intro hnames
      have hlast := hR.ensureDir (hnames (name :: up) (List.suffix_refl _))
      refine hR.bind (show Changes R (attempt _) from hlast) fun r => ?_
      split
      · exact hR.still (still_pure _)
      · split
        · exact hR.bind (ih fun back hback => hnames back (hback.trans (List.suffix_cons name up))) fun _ => hlast
        · exact hR.still (still_fail _)
  refine hup p.parts.reverse fun back hback => h _ ?_
  exact List.reverse_suffix.1 (by rwa [List.reverse_reverse])

/-- a file is put where its path leads -/
theorem save (hR : Allows R) {p : Path} (h : ∀ d q e, d.locate p = .ok q → R d (d.put q e)) (content : ByteArray) :
    Changes R (save p content) := by
  refine hR.still_bind (still_locate p) fun w q hq => ?_
  rw [bind_ok (show disk w = (.ok w.disk, w) from rfl)]
  have hput := fun e => h w.disk q e (locate_ok hq)
  cases w.disk.get? q with
  | none =>
    cases parentCause w.disk q with
    | some cause => exact hR.refl w.disk
    | none => exact hput _
  | some e =>
    cases e with
    | dir => exact hR.refl w.disk
    | file old mode => exact hput _
    | danglingLink =>
      cases parentCause w.disk q with
      | some cause => exact hR.refl w.disk
      | none => exact hput _

end Allows

/-! ## Steps that keep files -/

/-- a step that keeps the files at the places of `S`, where relative paths start at `home` -/
def Keeps (home : Place) (S : Place → Prop) (x : Work α) : Prop :=
  ∀ w, w.disk.here = home → FilesKept S w.disk (x w).2.disk

variable {home : Place} {S : Place → Prop}

theorem allows_keeping (home : Place) (S : Place → Prop) : Allows fun d d' => d.here = home → FilesKept S d d' where
  refl := fun d _ => FilesKept.refl S d
  trans := fun h h' hd => (h hd).trans (h' ((h hd).here.trans hd))

theorem Still.keeps {x : Work α} (h : Still x) : Keeps home S x := (allows_keeping home S).still h

theorem keeps_report (e : LogEntry) : Keeps home S (report e) := fun w _ => FilesKept.refl S w.disk

theorem Keeps.bind {x : Work α} {f : α → Work β} (hx : Keeps home S x) (hf : ∀ a, Keeps home S (f a)) :
    Keeps home S (x >>= f) := (allows_keeping home S).bind hx hf

theorem Keeps.foldlM {f : β → α → Work β} {xs : List α} (h : ∀ x ∈ xs, ∀ b, Keeps home S (f b x)) (b : β) :
    Keeps home S (xs.foldlM f b) := (allows_keeping home S).foldlM h b

theorem keeps_makeDirs (p : Path) : Keeps home S (makeDirs p) :=
  (allows_keeping home S).makeDirs fun _ _ d _ _ hnone _ _ => FilesKept.put_dir (by rw [Disk.hasEntry, hnone]; rfl)

/-- **Writing a file.** Only the place that the path leads to changes. -/
theorem keeps_save (p : Path) (content : ByteArray)
    (h : ¬ S (Path.resolve (if p.isAbsolute then [] else home) p.parts)) : Keeps home S (save p content) := by
  refine (allows_keeping home S).save (fun d q e hq hhere => ?_) content
  refine FilesKept.put_of_not ?_ e
  rw [Disk.locate_eq_resolve hq, Disk.origin, hhere]
  exact h

end Work

end Classwright
