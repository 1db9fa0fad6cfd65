/-
Directories and files that are made.

Below a directory that stands on the disk, everything that is asked for can be made, as long as no file is in the way and
no name is one that a disk refuses. Nothing that was there is lost, and nothing else comes.

- `Path.Usable`: a path that can be looked up; `Disk.Stands`: a path leads to a directory; `Path.Fits`: what a disk can take
  below it;
- `Disk.Widened`: a disk with some new directories; `walk_of_dirs`, `walk_open`: a way down on which there is no file;
- `Work.ensureDir_ok`, `Work.makeDirs_ok`: directories are made, with those above them;
- `Work.save_ok`: a new file is made in a directory.
-/
import Classwright.Proofs.Frames

namespace Classwright

/-! ## Paths that a disk takes -/

namespace Text

theorem utf8ByteSize_joinWith_le (front back : List String) :
    (joinWith "/" front).utf8ByteSize ≤ (joinWith "/" (front ++ back)).utf8ByteSize := by
  induction front with
  | nil => simp [joinWith]
  | cons s rest ih =>
    cases rest with
    | nil =>
      cases back with
      | nil => exact le_rfl
      | cons t more =>
        show s.utf8ByteSize ≤ (s ++ "/" ++ joinWith "/" (t :: more)).utf8ByteSize
        rw [String.utf8ByteSize_append, String.utf8ByteSize_append]
        omega
    | cons t more =>
      show (s ++ "/" ++ joinWith "/" (t :: more)).utf8ByteSize ≤
        (s ++ "/" ++ joinWith "/" (t :: more ++ back)).utf8ByteSize
      rw [String.utf8ByteSize_append, String.utf8ByteSize_append, String.utf8ByteSize_append,
        String.utf8ByteSize_append]
      omega

theorem utf8ByteSize_joinWith_le_append (front back : List String) :
    (joinWith "/" back).utf8ByteSize ≤ (joinWith "/" (front ++ back)).utf8ByteSize := by
  induction front with
  | nil => exact le_rfl
  | cons s rest ih =>
    rw [List.cons_append]
    cases hrest : rest ++ back with
    | nil => simp [joinWith, (List.append_eq_nil_iff.1 hrest).2]
    | cons t more =>
      rw [hrest] at ih
      show _ ≤ (s ++ "/" ++ joinWith "/" (t :: more)).utf8ByteSize
      rw [String.utf8ByteSize_append]
      omega

end Text

namespace Path

/-- a path is short when its names are, written one after the other -/
theorem short_iff (p : Path) : p.toString.utf8ByteSize ≤ Disk.pathLimit ↔
    p.root.utf8ByteSize + (Text.joinWith "/" p.parts).utf8ByteSize ≤ Disk.pathLimit := by
  rw [← String.utf8ByteSize_append]
  unfold toString
  dsimp only
  split_ifs with hempty
  · rw [String.isEmpty_iff.1 hempty]
    decide
  · rfl

/-- a path that can be looked up: it is not too long, and no character is one that a path cannot have -/
structure Usable (p : Path) : Prop where
  noNull : Work.hasNull p = false
  short : p.toString.utf8ByteSize ≤ Disk.pathLimit

/-- names that such a path ends with are such a path themselves -/
theorem Usable.names {top : String} {front names : List String} (h : Usable ⟨top, front ++ names⟩) : Usable ⟨"", names⟩ where
  noNull := by
    have hnull := h.noNull
    unfold Work.hasNull at hnull ⊢
    rw [List.any_append, Bool.or_eq_false_iff] at hnull
    exact hnull.2
  short := by
    have hshort := (short_iff _).1 h.short
    have hle := Text.utf8ByteSize_joinWith_le_append front names
    refine (short_iff _).2 ?_
    rw [String.utf8ByteSize_empty]
    dsimp only at hshort ⊢
    omega

/-- names below a path -/
def below (root : Path) (names : List String) : Path := ⟨root.root, root.parts ++ names⟩

/-- names below a path that a disk can take: none of them leads up or is too long, nor is the path, and no character is
one that a path cannot have -/
structure Fits (root : Path) (names : List String) : Prop where
  noNull : Work.hasNull (root.below names) = false
  short : (root.below names).toString.utf8ByteSize ≤ Disk.pathLimit
  down : ".." ∉ names
  shortNames : ∀ name ∈ names, name.utf8ByteSize ≤ Disk.nameLimit

instance (root : Path) (names : List String) : Decidable (root.Fits names) :=
  decidable_of_iff (Work.hasNull (root.below names) = false ∧
      (root.below names).toString.utf8ByteSize ≤ Disk.pathLimit ∧ ".." ∉ names ∧
      ∀ name ∈ names, name.utf8ByteSize ≤ Disk.nameLimit)
    ⟨fun h => ⟨h.1, h.2.1, h.2.2.1, h.2.2.2⟩, fun h => ⟨h.noNull, h.short, h.down, h.shortNames⟩⟩

theorem Fits.shorten {root : Path} {front names : List String} (h : root.Fits names) (hbegin : front <+: names) :
    root.Fits front where
  noNull := by
    have hnull := h.noNull
    obtain ⟨back, rfl⟩ := hbegin
    unfold Work.hasNull below at hnull ⊢
    dsimp only at hnull ⊢
    rw [← List.append_assoc, List.any_append, Bool.or_eq_false_iff] at hnull
    exact hnull.1
  short := by
    have hshort := (short_iff _).1 h.short
    obtain ⟨back, rfl⟩ := hbegin
    have hle := Text.utf8ByteSize_joinWith_le (root.parts ++ front) back
    rw [List.append_assoc] at hle
    refine (short_iff _).2 (le_trans ?_ hshort)
    exact Nat.add_le_add_left hle _
  down := fun hmem => h.down (hbegin.subset hmem)
  shortNames := fun name hname => h.shortNames name (hbegin.subset hname)

end Path

namespace Disk

/-! ## Ways down -/

/-- a path that leads to a directory -/
structure Stands (d : Disk) (root : Path) (r : Place) : Prop where
  walk : d.walk (d.origin root) root.parts = .ok r
  dir : d.get? r = some .dir

/-- a disk on which some places of `S` that held nothing are directories -/
structure Widened (S : Place → Prop) (d d' : Disk) : Prop where
  here : d'.here = d.here
  entry : ∀ q, d'.get? q = d.get? q ∨ (S q ∧ d.get? q = none ∧ d'.get? q = some .dir)

namespace Widened

variable {S T : Place → Prop} {d d' d'' : Disk}

theorem refl (S : Place → Prop) (d : Disk) : Widened S d d := ⟨rfl, fun _ => Or.inl rfl⟩

theorem trans (h : Widened S d d') (h' : Widened S d' d'') : Widened S d d'' where
  here := h'.here.trans h.here
  entry := by
    intro q
    rcases h.entry q with hq | ⟨hS, hnone, hdir⟩
    · rw [← hq]
      exact h'.entry q
    · rcases h'.entry q with hq' | ⟨-, hnone', -⟩
      · exact Or.inr ⟨hS, hnone, hq'.trans hdir⟩
      · rw [hdir] at hnone'
        cases hnone'

theorem mono (hST : ∀ q, S q → T q) (h : Widened S d d') : Widened T d d' where
  here := h.here
  entry := fun q => (h.entry q).imp id fun hq => ⟨hST q hq.1, hq.2⟩

theorem get? (h : Widened S d d') {q : Place} {e : Entry} (hq : d.get? q = some e) : d'.get? q = some e := by
  rcases h.entry q with heq | ⟨-, hnone, -⟩
  · rw [heq, hq]
  · rw [hnone] at hq
    cases hq

/-- where there was a directory or nothing, there is a directory or nothing -/
theorem dir_or_none (h : Widened S d d') {q : Place} (hq : d.get? q = some .dir ∨ d.get? q = none) :
    d'.get? q = some .dir ∨ d'.get? q = none := by
  rcases h.entry q with heq | ⟨-, -, hdir⟩
  · rwa [heq]
  · exact Or.inl hdir

theorem put_dir {q : Place} (hS : S q) (h : d.get? q = none) : Widened S d (d.put q .dir) where
  here := here_put d q .dir
  entry := by
    intro q'
    have hne : q ≠ [] := by
      rintro rfl
      simp [Disk.get?] at h
    by_cases hq : q = q'
    · subst hq
      exact Or.inr ⟨hS, h, get?_put_self d .dir hne⟩
    · exact Or.inl (get?_put_of_ne d .dir hq)

end Widened

variable {d d' : Disk} {p q r : Place} {names : List String}

theorem walk_append (d : Disk) (p : Place) (front back : List String) :
    d.walk p (front ++ back) = (d.walk p front).bind fun q => d.walk q back := by
  induction front generalizing p with
  | nil => rfl
  | cons name rest ih =>
    rw [List.cons_append, walk, walk]
    split
    · rfl
    · split_ifs
      · exact ih _
      · rfl
      · exact ih _

/-- a way can be gone as long as its directories stay -/
theorem walk_mono (hdirs : ∀ q, d.get? q = some .dir → d'.get? q = some .dir) (h : d.walk p names = .ok q) :
    d'.walk p names = .ok q := by
  induction names generalizing p with
  | nil => exact h
  | cons name rest ih =>
    rw [walk] at h ⊢
    have henter : d.enter p = none → d'.enter p = none := by
      unfold enter
      intro hp
      split at hp
      · next hdir => rw [hdirs p hdir]
      · cases hp
      · cases hp
    split at h
    · cases h
    · next hp =>
      rw [henter hp]
      dsimp only
      split_ifs at h ⊢
      · exact ih h
      · exact ih h

theorem Stands.mono (hhere : d'.here = d.here) (hdirs : ∀ q, d.get? q = some .dir → d'.get? q = some .dir) {root : Path}
    (h : d.Stands root r) : d'.Stands root r where
  walk := by
    have horigin : d'.origin root = d.origin root := by
      unfold origin
      rw [hhere]
    rw [horigin]
    exact walk_mono hdirs h.walk
  dir := hdirs r h.dir

theorem Stands.widened {S : Place → Prop} {root : Path} (h : d.Stands root r) (hnew : Widened S d d') : d'.Stands root r :=
  h.mono hnew.here fun _ hq => hnew.get? hq

/-- names that lead down through directories -/
theorem walk_of_dirs (hdown : ".." ∉ names) (hshort : ∀ name ∈ names, name.utf8ByteSize ≤ nameLimit)
    (hdirs : ∀ front, front <+: names → front ≠ names → d.get? (p ++ front) = some .dir) :
    d.walk p names = .ok (p ++ names) := by
  induction names generalizing p with
  | nil => rw [List.append_nil]; rfl
  | cons name rest ih =>
    obtain ⟨hname, hrest⟩ := not_or.1 (mt List.mem_cons.2 hdown)
    have hp : d.enter p = none := by
      have hdir := hdirs [] (List.nil_prefix) (List.cons_ne_nil _ _).symm
      rw [List.append_nil] at hdir
      unfold enter
      rw [hdir]
    rw [walk, hp]
    dsimp only
    rw [if_neg (Ne.symm hname), if_neg (Nat.not_lt.2 (hshort name List.mem_cons_self)),
      ih hrest (fun n hn => hshort n (List.mem_cons_of_mem _ hn)), List.append_assoc, List.singleton_append]
    intro front hfront hne
    rw [List.append_assoc, List.singleton_append]
    exact hdirs (name :: front) (List.cons_prefix_cons.2 ⟨rfl, hfront⟩) fun heq => hne (List.cons.inj heq).2

/-- names that lead down where no file is in the way: the directories on the way are there, or one is missing -/
theorem walk_open (hdown : ".." ∉ names) (hshort : ∀ name ∈ names, name.utf8ByteSize ≤ nameLimit)
    (hway : ∀ front, front <+: names → d.get? (p ++ front) = some .dir ∨ d.get? (p ++ front) = none) :
    (∀ front, front <+: names → front ≠ names → d.get? (p ++ front) = some .dir) ∨ d.walk p names = .error .missing := by
  induction names generalizing p with
  | nil =>
    refine Or.inl fun front hfront hne => absurd (List.prefix_nil.1 hfront) hne
  | cons name rest ih =>
    obtain ⟨hname, hrest⟩ := not_or.1 (mt List.mem_cons.2 hdown)
    have hstart := hway [] List.nil_prefix
    rw [List.append_nil] at hstart
    rcases hstart with hdir | hnone
    · have hp : d.enter p = none := by
        unfold enter
        rw [hdir]
      have hway' : ∀ front, front <+: rest →
          d.get? (p ++ [name] ++ front) = some .dir ∨ d.get? (p ++ [name] ++ front) = none := by
        intro front hfront
        rw [List.append_assoc, List.singleton_append]
        exact hway (name :: front) (List.cons_prefix_cons.2 ⟨rfl, hfront⟩)
      rcases ih hrest (fun n hn => hshort n (List.mem_cons_of_mem _ hn)) hway' with hdirs | hmissing
      · refine Or.inl fun front hfront hne => ?_
        cases front with
        | nil => rwa [List.append_nil]
        | cons n front =>
          obtain ⟨rfl, hback⟩ := List.cons_prefix_cons.1 hfront
          have hnext := hdirs front hback fun heq => hne (by rw [heq])
          rwa [List.append_assoc, List.singleton_append] at hnext
      · right
        rw [walk, hp]
        dsimp only
        rw [if_neg (Ne.symm hname), if_neg (Nat.not_lt.2 (hshort name List.mem_cons_self)), hmissing]
    · right
      have hp : d.enter p = some .missing := by
        unfold enter
        rw [hnone]
      rw [walk, hp]

end Disk

/-! ## Making directories -/

namespace Work

open Disk (Stands Widened)

variable {w : World} {root : Path} {r : Place} {names : List String}

/-- the places on a way down -/
def OnWay (r : Place) (names : List String) (q : Place) : Prop := ∃ front, front <+: names ∧ q = r ++ front

theorem disk_locate_below (hroot : w.disk.Stands root r) (hfits : root.Fits names) :
    w.disk.locate (root.below names) = w.disk.walk r names := by
  have horigin : w.disk.origin (root.below names) = w.disk.origin root := rfl
  unfold Disk.locate
  rw [if_neg (Nat.not_lt.2 hfits.short), horigin]
  show w.disk.walk _ (root.parts ++ names) = _
  rw [Disk.walk_append, hroot.walk]
  rfl

/-- the way below a directory that stands is the one down from its place -/
theorem locate_below (hroot : w.disk.Stands root r) (hfits : root.Fits names) :
    locate (root.below names) w =
      ((w.disk.walk r names).mapError fun cause => .disk ⟨cause, (root.below names).toString⟩, w) := by
  unfold locate
  rw [hfits.noNull, if_neg Bool.false_ne_true, bind_ok (show disk w = (.ok w.disk, w) from rfl),
    disk_locate_below hroot hfits]
  cases w.disk.walk r names <;> rfl

theorem locate_of_walk (hroot : w.disk.Stands root r) (hfits : root.Fits names) {q : Place}
    (hwalk : w.disk.walk r names = .ok q) : locate (root.below names) w = (.ok q, w) := by
  rw [locate_below hroot hfits, hwalk]
  rfl

theorem locate_of_missing (hroot : w.disk.Stands root r) (hfits : root.Fits names)
    (hwalk : w.disk.walk r names = .error .missing) :
    locate (root.below names) w = (.error (.disk ⟨.missing, (root.below names).toString⟩), w) := by
  rw [locate_below hroot hfits, hwalk]
  rfl

theorem isDir_of_walk (hroot : w.disk.Stands root r) (hfits : root.Fits names) {q : Place}
    (hwalk : w.disk.walk r names = .ok q) (hdir : w.disk.get? q = some .dir) :
    isDir (root.below names) w = (.ok true, w) := by
  have hentry : entryAt? (root.below names) w = (.ok (some .dir), w) := by
    unfold entryAt?
    rw [bind_ok (show disk w = (.ok w.disk, w) from rfl), hfits.noNull, if_neg Bool.false_ne_true,
      disk_locate_below hroot hfits, hwalk]
    show (Except.ok (w.disk.get? q), w) = _
    rw [hdir]
  unfold isDir
  rw [bind_ok hentry]
  rfl

/-- something can be made where the directories above stand -/
theorem parentCause_of_dirs {d : Disk} (hne : names ≠ [])
    (hdirs : ∀ front, front <+: names → front ≠ names → d.get? (r ++ front) = some .dir) :
    parentCause d (r ++ names) = none := by
  have hlast : names.dropLast ≠ names := fun heq => by
    have hlength := congrArg List.length heq
    have hpos := List.length_pos_of_ne_nil hne
    rw [List.length_dropLast] at hlength
    omega
  unfold parentCause Disk.enter
  rw [List.dropLast_append_of_ne_nil hne, hdirs names.dropLast (List.dropLast_prefix names) hlast]

/-- a directory in a directory is made, unless it is there -/
theorem ensureDir_ok (hroot : w.disk.Stands root r) (hfits : root.Fits names)
    (hdirs : ∀ front, front <+: names → front ≠ names → w.disk.get? (r ++ front) = some .dir)
    (hend : w.disk.get? (r ++ names) = some .dir ∨ w.disk.get? (r ++ names) = none) :
    ∃ w', ensureDir (root.below names) w = (.ok (), w') ∧ Widened (OnWay r names) w.disk w'.disk ∧
      w'.disk.get? (r ++ names) = some .dir := by
  have hwalk := Disk.walk_of_dirs hfits.down hfits.shortNames hdirs
  have hlocate := locate_of_walk hroot hfits hwalk
  have hdisk : disk w = (.ok w.disk, w) := rfl
  rcases hend with hdir | hnone
  · have hmake : makeDir (root.below names) w = (.error (.disk ⟨.exists, (root.below names).toString⟩), w) := by
      unfold makeDir
      rw [bind_ok hlocate, bind_ok hdisk, Disk.hasEntry, hdir]
      rfl
    have hattempt : attempt (makeDir (root.below names)) w =
        (.ok (.error (.disk ⟨.exists, (root.below names).toString⟩)), w) := by
      unfold attempt
      rw [hmake]
    refine ⟨w, ?_, Widened.refl _ _, hdir⟩
    unfold ensureDir
    rw [bind_ok hattempt]
    dsimp only
    rw [bind_ok (isDir_of_walk hroot hfits hwalk hdir)]
    rfl
  · have hne : names ≠ [] := by
      rintro rfl
      rw [List.append_nil, hroot.dir] at hnone
      cases hnone
    have hparent := parentCause_of_dirs hne hdirs
    have hmake : makeDir (root.below names) w = (.ok (), { w with disk := w.disk.put (r ++ names) .dir }) := by
      unfold makeDir
      rw [bind_ok hlocate, bind_ok hdisk, Disk.hasEntry, hnone, hparent]
      rfl
    have hattempt : attempt (makeDir (root.below names)) w =
        (.ok (.ok ()), { w with disk := w.disk.put (r ++ names) .dir }) := by
      unfold attempt
      rw [hmake]
    refine ⟨{ w with disk := w.disk.put (r ++ names) .dir }, ?_, ?_, ?_⟩
    · unfold ensureDir
      rw [bind_ok hattempt]
      rfl
    · exact Widened.put_dir ⟨names, List.prefix_refl names, rfl⟩ hnone
    · exact Disk.get?_put_self w.disk .dir (by simp [hne])

theorem ensureDir_missing (hroot : w.disk.Stands root r) (hfits : root.Fits names)
    (hwalk : w.disk.walk r names = .error .missing) :
    ensureDir (root.below names) w = (.error (.disk ⟨.missing, (root.below names).toString⟩), w) := by
  have hmake : makeDir (root.below names) w = (.error (.disk ⟨.missing, (root.below names).toString⟩), w) := by
    unfold makeDir
    exact bind_error (locate_of_missing hroot hfits hwalk) _
  have hattempt : attempt (makeDir (root.below names)) w =
      (.ok (.error (.disk ⟨.missing, (root.below names).toString⟩)), w) := by
    unfold attempt
    rw [hmake]
  unfold ensureDir
  rw [bind_ok hattempt]
  rfl

theorem makeDirs_of_ensureDir {p : Path} {w' : World} (h : ensureDir p w = (.ok (), w')) :
    makeDirs p w = (.ok (), w') := by
  obtain ⟨top, parts⟩ := p
  unfold makeDirs
  dsimp only
  cases hnames : parts.reverse with
  | nil =>
    rw [List.reverse_eq_nil_iff.1 hnames] at h
    exact h
  | cons name up =>
    have hparts : (name :: up).reverse = parts := by rw [← hnames, List.reverse_reverse]
    have hattempt : attempt (ensureDir ⟨top, (name :: up).reverse⟩) w = (.ok (.ok ()), w') := by
      unfold attempt
      rw [hparts, h]
    unfold makeDirsUp
    rw [bind_ok hattempt]
    rfl

/-- where a directory on the way is missing, those above are made first -/
theorem makeDirs_of_missing {front : List String} {name : String} {w₁ : World} {said : String}
    (h : ensureDir (root.below (front ++ [name])) w = (.error (.disk ⟨.missing, said⟩), w))
    (hup : makeDirs (root.below front) w = (.ok (), w₁)) :
    makeDirs (root.below (front ++ [name])) w = ensureDir (root.below (front ++ [name])) w₁ := by
  have hnames : (root.parts ++ (front ++ [name])).reverse = name :: (root.parts ++ front).reverse := by
    rw [← List.append_assoc, List.reverse_append]
    rfl
  have hparts : (name :: (root.parts ++ front).reverse).reverse = root.parts ++ (front ++ [name]) := by
    rw [← hnames, List.reverse_reverse]
  have hattempt : attempt (ensureDir ⟨root.root, (name :: (root.parts ++ front).reverse).reverse⟩) w =
      (.ok (.error (.disk ⟨.missing, said⟩)), w) := by
    unfold attempt
    rw [hparts]
    exact congrArg (fun r => (Except.ok r.1, r.2)) h
  show makeDirsUp root.root ensureDir (root.parts ++ (front ++ [name])).reverse w = _
  rw [hnames]
  unfold makeDirsUp
  rw [bind_ok hattempt]
  refine (bind_ok hup fun _ => ensureDir _).trans ?_
  rw [hparts]
  rfl

/-- once the directories above stand, the whole way does -/
theorem ensureDir_way (hroot : w.disk.Stands root r) (hfits : root.Fits names)
    (hdirs : ∀ front, front <+: names → front ≠ names → w.disk.get? (r ++ front) = some .dir)
    (hend : w.disk.get? (r ++ names) = some .dir ∨ w.disk.get? (r ++ names) = none) :
    ∃ w', ensureDir (root.below names) w = (.ok (), w') ∧ Widened (OnWay r names) w.disk w'.disk ∧
      ∀ front, front <+: names → w'.disk.get? (r ++ front) = some .dir := by
  obtain ⟨w', hmade, hwidened, hdir⟩ := ensureDir_ok hroot hfits hdirs hend
  refine ⟨w', hmade, hwidened, fun front hfront => ?_⟩
  by_cases hne : front = names
  · rwa [hne]
  · exact hwidened.get? (hdirs front hfront hne)

/-- **Directories are made**, with those above them, where no file is in the way. -/
theorem makeDirs_ok (hroot : w.disk.Stands root r) (hfits : root.Fits names)
    (hway : ∀ front, front <+: names → w.disk.get? (r ++ front) = some .dir ∨ w.disk.get? (r ++ front) = none) :
    ∃ w', makeDirs (root.below names) w = (.ok (), w') ∧ Widened (OnWay r names) w.disk w'.disk ∧
      ∀ front, front <+: names → w'.disk.get? (r ++ front) = some .dir := by
  induction names using List.reverseRecOn generalizing w with
  | nil =>
    have hend := hway [] List.nil_prefix
    obtain ⟨w', hmade, hrest⟩ :=
      ensureDir_way hroot hfits (fun front hfront hne => absurd (List.prefix_nil.1 hfront) hne) hend
    exact ⟨w', makeDirs_of_ensureDir hmade, hrest⟩
  | append_singleton init name ih =>
    have hend := hway (init ++ [name]) (List.prefix_refl _)
    rcases Disk.walk_open hfits.down hfits.shortNames hway with hdirs | hmissing
    · obtain ⟨w', hmade, hrest⟩ := ensureDir_way hroot hfits hdirs hend
      exact ⟨w', makeDirs_of_ensureDir hmade, hrest⟩
    · -- the directories above are made first
      have hinit : init <+: init ++ [name] := List.prefix_append _ _
      obtain ⟨w₁, hup, hwidened, hdirs⟩ :=
        ih hroot (hfits.shorten hinit) fun front hfront => hway front (hfront.trans hinit)
      have hroot₁ := hroot.widened hwidened
      have hdirs₁ : ∀ front, front <+: init ++ [name] → front ≠ init ++ [name] →
          w₁.disk.get? (r ++ front) = some .dir := fun front hfront hne =>
        hdirs front ((List.prefix_concat_iff.1 hfront).resolve_left hne)
      obtain ⟨w', hmade, hwidened', hdirs'⟩ := ensureDir_way hroot₁ hfits hdirs₁ (hwidened.dir_or_none hend)
      refine ⟨w', ?_, ?_, hdirs'⟩
      · rw [makeDirs_of_missing (ensureDir_missing hroot hfits hmissing) hup]
        exact hmade
      · refine (hwidened.mono fun q hq => ?_).trans hwidened'
        obtain ⟨front, hfront, rfl⟩ := hq
        exact ⟨front, hfront.trans hinit, rfl⟩

/-! ## Making files -/

/-- **A file is made** in a directory that has nothing of its name. -/
theorem save_ok (hroot : w.disk.Stands root r) (hfits : root.Fits names) (hne : names ≠ [])
    (hdirs : ∀ front, front <+: names → front ≠ names → w.disk.get? (r ++ front) = some .dir)
    (hnone : w.disk.get? (r ++ names) = none) (content : ByteArray) :
    save (root.below names) content w =
      (.ok (), { w with disk := w.disk.put (r ++ names) (.file content Entry.defaultMode) }) := by
  have hwalk := Disk.walk_of_dirs hfits.down hfits.shortNames hdirs
  have hparent := parentCause_of_dirs hne hdirs
  unfold save
  rw [bind_ok (locate_of_walk hroot hfits hwalk), bind_ok (show disk w = (.ok w.disk, w) from rfl), hnone, hparent]
  rfl

end Work

end Classwright
