/-
What is on disk when some entries of a scaffold have been copied.

The entries do not lie in each other's way, nor in that of the packages. So whatever the template is, and wherever it stands
as long as the root is not in one of its directories, what is to be copied next is what stood there before anything was
done, and where it belongs there is nothing yet.

- `Scaffold.paths`: the entries, and how they lie to each other and to the packages;
- `Scaffold.Ground`: a root and a template on a disk; `Laid`: what is on disk after some of the entries;
- `Laid.file_eq`, `directory_same`: what is copied is what was there before; `free`, `vacant`: where it belongs is free;
- `Laid.extend`: one more entry; `Laid.file`, `Laid.directory`: what a file and a directory have to do with it.
-/
import Classwright.Scaffold
import Classwright.Proofs.Copies
import Classwright.Proofs.Packages

namespace Classwright

/-! ## The entries of a scaffold -/

namespace Scaffold

/-- the entries: single files, then directories -/
def paths : List Path := files.map Item.path ++ directories

/-- no entry leads through another -/
theorem not_prefix_of_ne : ∀ p ∈ paths, ∀ q ∈ paths, p ≠ q → ¬ p.parts <+: q.parts := by decide

/-- no package is in an entry -/
theorem not_above_package : ∀ p ∈ paths, ∀ dir ∈ Artifact.packageDirs, ¬ p.parts <+: dir.parts := by decide

/-- no entry ends with a name of a package -/
theorem last_not_in_package : ∀ p ∈ paths, ∀ dir ∈ Artifact.packageDirs, ∀ name ∈ dir.parts, p.parts.getLast? ≠ some name := by
  decide

/-- no entry begins with a name that stands behind the first in an entry -/
theorem head_not_in_tail : ∀ p ∈ paths, ∀ q ∈ paths, ∀ name ∈ q.parts.tail, p.parts.head? ≠ some name := by decide

/-- what is beneath an entry is not beneath another -/
theorem not_beneath_both {p q : Path} (hp : p ∈ paths) (hq : q ∈ paths) (hne : p ≠ q) {names : List String} :
    ¬ q.parts <+: p.parts ++ names := fun h =>
  (List.prefix_or_prefix_of_prefix h (List.prefix_append p.parts names)).elim (not_prefix_of_ne q hq p hp hne.symm)
    (not_prefix_of_ne p hp q hq hne)

theorem nodup_paths : paths.Nodup := by decide

theorem parts_ne_nil : ∀ p ∈ paths, p.parts ≠ [] := by decide

theorem up_not_mem : ∀ p ∈ paths, ".." ∉ p.parts := by decide

theorem root_eq : ∀ p ∈ paths, p.root = "" := by decide

theorem join_eq {root p : Path} (h : p ∈ paths) : root.join p = root.below p.parts := by
  have hrelative : ∀ p ∈ paths, p.isAbsolute = false := by decide
  unfold Path.join
  rw [hrelative p h, if_neg Bool.false_ne_true]
  rfl

theorem toString_eq {p : Path} (h : p ∈ paths) : p.toString = Text.joinWith "/" p.parts := by
  have hnames : ∀ p ∈ paths, p.toString = Text.joinWith "/" p.parts := by decide
  exact hnames p h

end Scaffold

/-! ## What is on disk after some of the entries -/

/-- everything on a disk has names all the way down -/
def Disk.Named (d : Disk) : Prop := ∀ q e, d.get? q = some e → ∀ name ∈ q, Path.IsName name

namespace Scaffold

/-- a root and a template: `before` is the disk to begin with, on which nothing is beneath the root, and `start` the one
from which the entries are copied, on which both stand -/
structure Ground (before start : Disk) (root template : Path) (r t : Place) : Prop where
  tree : before.Tree
  named : before.Named
  empty : ∀ names, names ≠ [] → before.get? (r ++ names) = none
  here : start.here = before.here
  root : start.Holding root r .dir
  template : start.Holding template t .dir
  apart : ∀ p ∈ directories, ¬ t ++ p.parts <+: r

theorem head?_eq_of_front {a b : List String} (h : a <+: b) (hne : a ≠ []) : a.head? = b.head? := by
  obtain ⟨back, rfl⟩ := h
  rw [List.head?_append_of_ne_nil a hne]

/-- what is on disk when some of the entries have been copied -/
structure Laid (before start : Disk) (r t : Place) (copied : List Path) (d : Disk) : Prop where
  tree : d.Tree
  here : d.here = before.here
  stand : ∀ q, start.get? q = some .dir → d.get? q = some .dir
  kept : ∀ q e, before.get? q = some e → d.get? q = some e
  keptFile : ∀ q s, before.stampAt? q = some s → d.stampAt? q = some s
  fresh : ∀ q e, ¬ r <+: q → d.get? q = some e → before.get? q = some e ∨ e = .dir ∧ q <+: r
  known : copied ⊆ paths
  apart : ∀ p ∈ copied, ¬ r <+: t ++ p.parts
  dirs : ∀ names, d.get? (r ++ names) = some .dir → (∃ dir ∈ Artifact.packageDirs, names <+: dir.parts) ∨
    ∃ p ∈ copied, names <+: p.parts ∨ p.parts <+: names ∧ before.get? (t ++ names) = some .dir
  files : ∀ names s, d.stampAt? (r ++ names) = some s ↔
    ∃ p ∈ copied, p.parts <+: names ∧ before.stampAt? (t ++ names) = some s
  usable : ∀ names s, d.stampAt? (r ++ names) = some s → Path.Usable ⟨"", names⟩

namespace Laid

variable {before start d d' : Disk} {root template p : Path} {r t : Place} {copied : List Path} {names : List String}
variable {s : ByteArray × Int}

theorem holding (h : Laid before start r t copied d) (hground : Ground before start root template r t) {path : Path} {q : Place}
    (hstart : start.Holding path q .dir) : d.Holding path q .dir :=
  hstart.mono (h.here.trans hground.here.symm) h.stand

/-- what the files hold that were copied -/
theorem content_iff (h : Laid before start r t copied d) {c : ByteArray} : d.fileAt? (r ++ names) = some c ↔
    ∃ p ∈ copied, p.parts <+: names ∧ before.fileAt? (t ++ names) = some c := by
  simp only [Disk.fileAt?_eq_some_iff_stamped, h.files]
  constructor
  · rintro ⟨time, p, hp, hway, hs⟩
    exact ⟨p, hp, hway, time, hs⟩
  · rintro ⟨p, hp, hway, time, hs⟩
    exact ⟨time, p, hp, hway, hs⟩

/-- where something was copied, the template is not beneath the root -/
theorem not_beneath (h : Laid before start r t copied d) (hne : copied ≠ []) : ¬ r <+: t := by
  obtain ⟨p, rest, rfl⟩ := List.exists_cons_of_ne_nil hne
  exact fun hbelow => h.apart p List.mem_cons_self (hbelow.trans (List.prefix_append t p.parts))

/-- an entry that leads into the root does not go through one that was copied there -/
theorem head_ne (h : Laid before start r t copied d) (hp : p ∈ paths) (hentry : t ++ p.parts = r ++ names) {p' : Path}
    (hp' : p' ∈ copied) : names.head? ≠ p'.parts.head? := by
  intro hhead
  have hbeneath := h.not_beneath (List.ne_nil_of_mem hp')
  rcases List.prefix_or_prefix_of_prefix (hentry ▸ List.prefix_append t p.parts) (List.prefix_append r names) with hfront | hback
  · obtain ⟨front, rfl⟩ := hfront
    rw [List.append_assoc] at hentry
    have hparts := List.append_cancel_left hentry
    cases front with
    | nil => exact hbeneath (by rw [List.append_nil])
    | cons first more =>
      obtain ⟨name, rest, hname⟩ := List.exists_cons_of_ne_nil (parts_ne_nil p' (h.known hp'))
      rw [hname, List.head?_cons] at hhead
      refine head_not_in_tail p' (h.known hp') p hp name ?_ (by rw [hname, List.head?_cons])
      rw [hparts, List.cons_append, List.tail_cons]
      exact List.mem_append_right _ (List.mem_of_mem_head? hhead)
  · exact hbeneath hback

/-- what an entry is copied from is not beneath the root -/
theorem source_apart (h : Laid before start r t copied d) (hp : p ∈ paths) (hroot : t ++ p.parts ≠ r) {e : Entry}
    (he : d.get? (t ++ p.parts) = some e) (hkind : e = .dir ∨ ∃ c m, e = .file c m) : ¬ r <+: t ++ p.parts := by
  rintro ⟨names, hentry⟩
  have hne : names ≠ [] := by
    rintro rfl
    rw [List.append_nil] at hentry
    exact hroot hentry.symm
  have hhead : ∀ p' ∈ copied, names <+: p'.parts ∨ p'.parts <+: names → False := by
    intro p' hp' hway
    refine h.head_ne hp hentry.symm hp' ?_
    rcases hway with hway | hway
    · exact head?_eq_of_front hway hne
    · exact (head?_eq_of_front hway (parts_ne_nil p' (h.known hp'))).symm
  rw [← hentry] at he
  rcases hkind with rfl | ⟨c, m, rfl⟩
  · rcases h.dirs names he with ⟨dir, hdir, hway⟩ | ⟨p', hp', hway⟩
    · have hlast : names.getLast? = p.parts.getLast? := by
        rw [← List.getLast?_append_of_ne_nil r hne, hentry, List.getLast?_append_of_ne_nil t (parts_ne_nil p hp)]
      obtain ⟨name, hname⟩ := List.getLast?_isSome.2 hne |> Option.isSome_iff_exists.1
      exact last_not_in_package p hp dir hdir name (hway.subset (List.mem_of_getLast? hname)) (hlast ▸ hname)
    · exact hhead p' hp' (hway.imp id And.left)
  · have hfile := Disk.fileAt?_eq_some_iff.2 ⟨m, he⟩
    obtain ⟨p', hp', hway, -⟩ := (h.files names (c, _)).1 (Disk.stampAt?_eq_some_iff.2 ⟨hfile, rfl⟩)
    exact hhead p' hp' (Or.inr hway)

theorem file_apart (h : Laid before start r t copied d) (hground : Ground before start root template r t) (hp : p ∈ paths)
    (hfile : d.stampAt? (t ++ p.parts) = some s) : ¬ r <+: t ++ p.parts := by
  obtain ⟨mode, hentry⟩ := Disk.fileAt?_eq_some_iff.1 (Disk.stampAt?_eq_some_iff.1 hfile).1
  refine h.source_apart hp (fun heq => ?_) hentry (Or.inr ⟨s.1, mode, rfl⟩)
  rw [heq, (h.holding hground hground.root).2.2] at hentry
  cases hentry

/-- the files that a template has for the entries are those it had before -/
theorem file_eq (h : Laid before start r t copied d) (hground : Ground before start root template r t) (hp : p ∈ paths) :
    d.stampAt? (t ++ p.parts) = before.stampAt? (t ++ p.parts) := by
  cases hfile : d.stampAt? (t ++ p.parts) with
  | some s =>
    obtain ⟨mode, hentry⟩ := Disk.fileAt?_eq_some_iff.1 (Disk.stampAt?_eq_some_iff.1 hfile).1
    rcases h.fresh _ _ (h.file_apart hground hp hfile) hentry with hbefore | ⟨hdir, -⟩
    · rw [← hfile]
      exact Disk.stampAt?_of_kept (hentry.trans hbefore.symm) (h.keptFile _)
    · cases hdir
  | none =>
    cases hbefore : before.stampAt? (t ++ p.parts) with
    | none => rfl
    | some s => cases hfile.symm.trans (h.keptFile _ s hbefore)

/-- what stands at a directory entry of a template, and beneath it, is what stood there before -/
theorem directory_same (h : Laid before start r t copied d) (hground : Ground before start root template r t)
    (hp : p ∈ directories) (hdir : d.get? (t ++ p.parts) = some .dir) :
    ¬ r <+: t ++ p.parts ∧ ∀ names, d.get? (t ++ p.parts ++ names) = before.get? (t ++ p.parts ++ names) ∧
      d.stampAt? (t ++ p.parts ++ names) = before.stampAt? (t ++ p.parts ++ names) := by
  have hroot : t ++ p.parts ≠ r := fun heq => hground.apart p hp (heq ▸ List.prefix_refl _)
  have hapart := h.source_apart (List.mem_append_right _ hp) hroot hdir (Or.inl rfl)
  have hsame : ∀ names, d.get? (t ++ p.parts ++ names) = before.get? (t ++ p.parts ++ names) := by
    intro names
    have hr : ¬ r <+: t ++ p.parts ++ names := fun hr =>
      (List.prefix_or_prefix_of_prefix hr (List.prefix_append _ names)).elim hapart (hground.apart p hp)
    have hr' : ¬ t ++ p.parts ++ names <+: r := fun hr' => hground.apart p hp ((List.prefix_append _ names).trans hr')
    cases hentry : d.get? (t ++ p.parts ++ names) with
    | some e =>
      rcases h.fresh _ _ hr hentry with hbefore | ⟨-, habove⟩
      · exact hbefore.symm
      · exact absurd habove hr'
    | none =>
      cases hbefore : before.get? (t ++ p.parts ++ names) with
      | none => rfl
      | some e =>
        rw [h.kept _ _ hbefore] at hentry
        cases hentry
  exact ⟨hapart, fun names => ⟨hsame names, Disk.stampAt?_of_kept (hsame names) (h.keptFile _)⟩⟩

/-! ### One more entry -/

/-- where an entry belongs that was not copied yet, there are no directories -/
theorem free (h : Laid before start r t copied d) (hp : p ∈ paths) (hnew : p ∉ copied) (names : List String) :
    d.get? (r ++ p.parts ++ names) ≠ some .dir := by
  rw [List.append_assoc]
  intro hdir
  have hne : ∀ p' ∈ copied, p ≠ p' := fun p' hp' heq => hnew (heq ▸ hp')
  rcases h.dirs _ hdir with ⟨dir, hpackage, hway⟩ | ⟨p', hp', hway | ⟨hway, -⟩⟩
  · exact not_above_package p hp dir hpackage ((List.prefix_append p.parts names).trans hway)
  · exact not_prefix_of_ne p hp p' (h.known hp') (hne p' hp') ((List.prefix_append p.parts names).trans hway)
  · exact not_beneath_both hp (h.known hp') (hne p' hp') hway

/-- nor are there files -/
theorem vacant (h : Laid before start r t copied d) (hp : p ∈ paths) (hnew : p ∉ copied) (names : List String) :
    d.stampAt? (r ++ p.parts ++ names) = none := by
  rw [List.append_assoc]
  cases hfile : d.stampAt? (r ++ (p.parts ++ names)) with
  | none => rfl
  | some s =>
    obtain ⟨p', hp', hway, -⟩ := (h.files _ s).1 hfile
    exact absurd hway (not_beneath_both hp (h.known hp') fun heq => hnew (heq ▸ hp'))

/-- nor are there directories when those on the way were made -/
theorem no_dir {d₁ : Disk} (h : Laid before start r t copied d) (hp : p ∈ paths) (hnew : p ∉ copied)
    (hwidened : Disk.Widened (Work.OnWay r p.parts.dropLast) d d₁) (names : List String) :
    d₁.get? (r ++ p.parts ++ names) ≠ some .dir := by
  rcases hwidened.entry (r ++ p.parts ++ names) with heq | ⟨⟨front, hfront, heq⟩, -, -⟩
  · rw [heq]
    exact h.free hp hnew names
  · rw [List.append_assoc] at heq
    have hlength := (List.append_cancel_left heq ▸ hfront : p.parts ++ names <+: p.parts.dropLast).length_le
    have hpos := List.length_pos_of_ne_nil (parts_ne_nil p hp)
    rw [List.length_append, List.length_dropLast] at hlength
    omega

/-- **One more entry.** What is at its place then is what the template had for it. -/
theorem extend (h : Laid before start r t copied d) (hground : Ground before start root template r t) (hp : p ∈ paths)
    (hnew : p ∉ copied) (hsource : ¬ r <+: t ++ p.parts) (hadded : Disk.Added r p.parts d d')
    (hmirrors : Disk.Mirrors (t ++ p.parts) (r ++ p.parts) before d')
    (husable : ∀ names s, d'.stampAt? (r ++ p.parts ++ names) = some s → Path.Usable ⟨"", p.parts ++ names⟩) :
    Laid before start r t (copied ++ [p]) d' := by
  have hmem : ∀ p', p' ∈ copied ++ [p] ↔ p' ∈ copied ∨ p' = p := by simp
  have hother : ∀ {names}, ¬ p.parts <+: names → ¬ r ++ p.parts <+: r ++ names := fun hno hway =>
    hno ((List.prefix_append_right_inj r).1 hway)
  exact {
    tree := hadded.tree
    here := hadded.here.trans h.here
    stand := by
      intro q hq
      refine hadded.kept ?_ (h.stand q hq)
      rintro ⟨rest, rfl⟩
      exact h.free hp hnew rest (h.stand _ hq)
    kept := by
      intro q e hq
      refine hadded.kept ?_ (h.kept q e hq)
      rintro ⟨rest, rfl⟩
      rw [List.append_assoc, hground.empty _ (List.append_ne_nil_of_left_ne_nil (parts_ne_nil p hp) rest)] at hq
      cases hq
    keptFile := by
      intro q s hq
      rw [hadded.stamps q, h.keptFile q s hq]
      rintro ⟨rest, rfl⟩
      cases (h.vacant hp hnew rest).symm.trans (h.keptFile _ s hq)
    fresh := by
      intro q e hr hq
      rcases hadded.outside q fun hway => hr ((List.prefix_append r p.parts).trans hway) with heq | ⟨⟨front, -, rfl⟩, -, -⟩
      · exact h.fresh q e hr (heq ▸ hq)
      · exact absurd (List.prefix_append r front) hr
    known := List.append_subset.2 ⟨h.known, List.cons_subset.2 ⟨hp, List.nil_subset _⟩⟩
    apart := List.forall_mem_append.2 ⟨h.apart, List.forall_mem_singleton.2 hsource⟩
    dirs := by
      intro names hnames
      by_cases hway : p.parts <+: names
      · obtain ⟨rest, rfl⟩ := hway
        rw [← List.append_assoc] at hnames
        have hthere := hmirrors.dirs rest hnames
        rw [List.append_assoc] at hthere
        exact Or.inr ⟨p, (hmem p).2 (Or.inr rfl), Or.inr ⟨List.prefix_append _ _, hthere⟩⟩
      · rcases hadded.outside _ (hother hway) with heq | ⟨⟨front, hfront, heq⟩, -, -⟩
        · refine (h.dirs names (heq ▸ hnames)).imp id ?_
          rintro ⟨p', hp', hrest⟩
          exact ⟨p', (hmem p').2 (Or.inl hp'), hrest⟩
        · obtain rfl := List.append_cancel_left heq
          exact Or.inr ⟨p, (hmem p).2 (Or.inr rfl), Or.inl hfront⟩
    files := by
      intro names s
      by_cases hway : p.parts <+: names
      · have hcopy : d'.stampAt? (r ++ names) = before.stampAt? (t ++ names) := by
          obtain ⟨rest, rfl⟩ := hway
          rw [← List.append_assoc, ← List.append_assoc, hmirrors.files]
        rw [hcopy]
        exact ⟨fun hs => ⟨p, (hmem p).2 (Or.inr rfl), hway, hs⟩, fun ⟨_, _, _, hs⟩ => hs⟩
      · rw [hadded.stamps _ (hother hway), h.files]
        constructor
        · rintro ⟨p', hp', hrest⟩
          exact ⟨p', (hmem p').2 (Or.inl hp'), hrest⟩
        · rintro ⟨p', hp', hback, hs⟩
          rcases (hmem p').1 hp' with hp' | rfl
          · exact ⟨p', hp', hback, hs⟩
          · exact absurd hback hway
    usable := by
      intro names s hs
      by_cases hway : p.parts <+: names
      · obtain ⟨rest, rfl⟩ := hway
        exact husable rest s (by rwa [List.append_assoc])
      · exact h.usable names s (hadded.stamps _ (hother hway) ▸ hs) }

/-- one more file -/
theorem file {d₁ : Disk} (h : Laid before start r t copied d) (hground : Ground before start root template r t) (hp : p ∈ paths)
    (hnew : p ∉ copied) (hfile : d.stampAt? (t ++ p.parts) = some s)
    (hwidened : Disk.Widened (Work.OnWay r p.parts.dropLast) d d₁) (hstamps : ∀ q, d₁.stampAt? q = d.stampAt? q)
    (hwrote : Disk.Wrote (r ++ p.parts) s d₁ d') (htree : d₁.Tree) (husable : Path.Usable ⟨"", p.parts⟩) :
    Laid before start r t (copied ++ [p]) d' := by
  have hbefore := (h.file_eq hground hp).symm.trans hfile
  have hnodir : ∀ names, d'.get? (r ++ p.parts ++ names) ≠ some .dir := fun names hdir =>
    h.no_dir hp hnew hwidened names ((hwrote.dir_iff _).1 hdir)
  have hfiles : ∀ names, d'.stampAt? (r ++ p.parts ++ names) = before.stampAt? (t ++ p.parts ++ names) := by
    intro names
    rw [hwrote.stampAt?, hstamps, h.vacant hp hnew, hground.tree.stampAt?_append hbefore]
    simp only [List.append_right_eq_self]
  refine h.extend hground hp hnew (h.file_apart hground hp hfile) (.of_file hwidened hstamps htree hwrote)
    ⟨fun names hdir => absurd hdir (hnodir names), hfiles⟩ fun names s' hs' => ?_
  rw [hfiles, hground.tree.stampAt?_append hbefore] at hs'
  split_ifs at hs' with hnil
  rwa [hnil, List.append_nil]

/-- one more directory -/
theorem directory (h : Laid before start r t copied d) (hground : Ground before start root template r t)
    (hp : p ∈ directories) (hnew : p ∉ copied) (hdir : d.get? (t ++ p.parts) = some .dir)
    (hadded : Disk.Added r p.parts d d') (hmirrors : Disk.Mirrors (t ++ p.parts) (r ++ p.parts) d d')
    (husable : ∀ names s, d'.stampAt? (r ++ p.parts ++ names) = some s → Path.Usable ⟨"", p.parts ++ names⟩) :
    Laid before start r t (copied ++ [p]) d' := by
  obtain ⟨hsource, hsame⟩ := h.directory_same hground hp hdir
  exact h.extend hground (List.mem_append_right _ hp) hnew hsource hadded
    (hmirrors.congr (fun names => (hsame names).1) fun names => (hsame names).2) husable

end Laid

end Scaffold

end Classwright
