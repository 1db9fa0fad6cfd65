/-
What is delivered: the files of a project on disk, its manifest, and its archive.

The scaffold is copied to an empty root and the artifacts are written over it, so a file beneath the root holds the last
artifact that was written to its path, and if there is none, what the template has there, with the time that it has there.
The manifest lists these files, and so does the archive of the root, if there is one: the format has no dates for files of a
template that were last changed too early or too late.

- `Manifest.mem_files`, `ascending_files`: what a manifest lists;
- `Artifact.Inner`: an artifact whose path leads down from the root; `Artifact.last?`: the last one for a path;
- `Project.Written`: what is on disk when some artifacts were written; `written_one`, `written_all`;
- `Project.Delivered`, `Reported`, `Archived`: what disk, manifest and archive have to do with each other, which is proved
  of every project that was assembled in `disk_manifest_archive_agree`;
- `Project.Delivered.dated`: when all of these files have dates;
- `shelf_not_archived`: a project that cannot be archived, because of an old template.
-/
import Classwright.Proofs.Packing
import Classwright.Proofs.Scaffolds

namespace Classwright

/-! ## The files of a manifest -/

namespace Text

theorem mem_distinct {xs : List String} {s : String} : s ∈ distinct xs ↔ s ∈ xs := by
  have hfold : ∀ seen : List String,
      s ∈ xs.foldl (fun seen x => if seen.contains x then seen else seen ++ [x]) seen ↔ s ∈ seen ∨ s ∈ xs := by
    induction xs with
    | nil => simp
    | cons x rest ih =>
      intro seen
      rw [List.foldl_cons, ih]
      split_ifs with hx
      · have hx := List.contains_iff_mem.1 hx
        grind
      · grind
  exact (hfold []).trans (by simp)

theorem nodup_distinct (xs : List String) : (distinct xs).Nodup := by
  have hfold : ∀ seen : List String, seen.Nodup →
      (xs.foldl (fun seen x => if seen.contains x then seen else seen ++ [x]) seen).Nodup := by
    induction xs with
    | nil => exact fun seen h => h
    | cons x rest ih =>
      intro seen hseen
      rw [List.foldl_cons]
      split_ifs with hx
      · exact ih seen hseen
      · refine ih _ (hseen.append (List.nodup_singleton x) fun s hs hsx => hx ?_)
        rw [List.mem_singleton.1 hsx] at hs
        exact List.contains_iff_mem.2 hs
  exact hfold [] List.nodup_nil

end Text

namespace Manifest

theorem mem_files {m : Manifest} {s : String} : s ∈ m.files ↔ s ∈ m.scaffold ∨ s ∈ m.artifacts := by
  unfold files Text.sort
  rw [(List.mergeSort_perm _ _).mem_iff, Text.mem_distinct, List.mem_append]

/-- a manifest lists its files in ascending order, each once -/
theorem ascending_files (m : Manifest) : m.files.Pairwise (· < ·) := by
  refine Text.ascending_of_nodup ?_ ?_
  · exact List.pairwise_mergeSort Text.precedes_trans Text.precedes_total _
  · exact (List.mergeSort_perm _ _).nodup_iff.2 (Text.nodup_distinct _)

end Manifest

/-! ## Artifacts -/

namespace Artifact

/-- an artifact whose path leads down from the root of a project -/
structure Inner (a : Artifact) : Prop where
  relative : a.path.isAbsolute = false
  down : ".." ∉ a.path.parts
  spelled : ∃ s, a.path = Path.ofString s

/-- the last artifact for a path -/
def last? (as : List Artifact) (names : List String) : Option Artifact := as.reverse.find? fun a => a.path.parts == names

variable {a : Artifact} {as : List Artifact} {names : List String}

theorem last?_append_singleton : last? (as ++ [a]) names = if a.path.parts = names then some a else last? as names := by
  unfold last?
  rw [List.reverse_append, List.reverse_singleton, List.singleton_append, List.find?_cons]
  split <;> simp_all

theorem last?_isSome : (last? as names).isSome = true ↔ ∃ a ∈ as, a.path.parts = names := by
  unfold last?
  rw [List.find?_isSome]
  simp

theorem Inner.isName (h : a.Inner) : ∀ name ∈ a.path.parts, Path.IsName name := by
  obtain ⟨s, hs⟩ := h.spelled
  have hdown := h.down
  rw [hs] at hdown ⊢
  exact fun name hname => Path.isName_of_mem_names hname fun hup => hdown (hup ▸ hname)

theorem Inner.join_eq (h : a.Inner) (root : Path) : root.join a.path = root.below a.path.parts := by
  unfold Path.join
  rw [h.relative, if_neg Bool.false_ne_true]
  rfl

theorem Inner.toString_eq (h : a.Inner) (hne : a.path.parts ≠ []) : a.path.toString = Text.joinWith "/" a.path.parts := by
  have hroot : a.path.root = "" := by
    have hrelative := h.relative
    unfold Path.isAbsolute at hrelative
    rwa [Bool.not_eq_false', String.isEmpty_iff] at hrelative
  have hpath : a.path = ⟨"", a.path.parts⟩ := by rw [← hroot]
  rw [hpath]
  exact Path.toString_relative h.isName hne

end Artifact

namespace Project

open Artifact (Inner last?)
open Disk (Holding)

variable {root : Path} {r : Place} {as done : List Artifact} {a : Artifact} {d : Disk} {m m' : Manifest} {w w' : World}

/-- what is on disk when some artifacts were written beneath a root; `d` is the disk before them -/
structure Written (root : Path) (r : Place) (as : List Artifact) (d d' : Disk) : Prop where
  tree : d'.Tree
  root : d'.Holding root r .dir
  here : d'.here = d.here
  clock : d.SameClock d'
  files : ∀ names, d'.stampAt? (r ++ names) =
    ((last? as names).map fun a => (a.content.toUTF8, d.now)).or (d.stampAt? (r ++ names))
  fits : ∀ a ∈ as, a.path.parts ≠ [] ∧ Path.Usable ⟨"", a.path.parts⟩

/-- **One artifact.** -/
theorem written_one (h : Written root r as d w.disk) (ha : a.Inner) (hrun : writeArtifact root m a w = (.ok m', w')) :
    Written root r (as ++ [a]) d w'.disk ∧ m' = m.addArtifact a.path.toString := by
  obtain ⟨_, w₁, hmade, hrun⟩ := Work.bind_eq_ok hrun
  obtain ⟨_, w₂, hsave, hrun⟩ := Work.bind_eq_ok hrun
  cases hrun
  rw [ha.join_eq] at hmade hsave
  have hwidened := Work.widened_makeDirs ⟨(root.below a.path.parts).root, (root.below a.path.parts).parts.dropLast⟩ w
  have htree := Work.tree_makeDirs ⟨(root.below a.path.parts).root, (root.below a.path.parts).parts.dropLast⟩ w h.tree
  rw [hmade] at hwidened htree
  have hstamps := (Work.stampAt?_makeDirs _).of_run hmade
  have hclock := h.clock.trans ((Work.sameClock_makeDirs _).of_run hmade)
  have hroot : w₁.disk.Holding root r .dir := h.root.mono hwidened.here fun q hq => hwidened.get? hq
  have hsaveClock := (Work.sameClock_save _ _).of_run hsave
  have hwrote := Work.save_wrote hsave
  rw [Disk.placeOf_below _ _ ha.down, hroot.stands.placeOf, hclock.now] at hwrote
  have hne : a.path.parts ≠ [] := by
    intro hnil
    have hfree := hwrote.free
    rw [hnil, List.append_nil] at hfree
    exact hfree hroot.2.2
  refine ⟨⟨hwrote.tree htree, hroot.mono hwrote.here fun q => (hwrote.dir_iff q).2,
    (hwrote.here.trans hwidened.here).trans h.here, hclock.trans hsaveClock, fun names => ?_, fun b hb => ?_⟩, rfl⟩
  · change w₂.disk.stampAt? (r ++ names) = _
    rw [hwrote.stampAt?, hstamps, h.files, Artifact.last?_append_singleton]
    by_cases hnames : a.path.parts = names
    · rw [if_pos (by rw [hnames]), if_pos hnames]
      rfl
    · rw [if_neg fun heq => hnames (List.append_cancel_left heq).symm, if_neg hnames]
  · rcases List.mem_append.1 hb with hb | hb
    · exact h.fits b hb
    · rw [List.mem_singleton.1 hb]
      exact ⟨hne, (Work.usable_of_save hsave).names⟩

/-- **All artifacts**, one after the other. -/
theorem written_all (h : Written root r done d w.disk) (has : ∀ a ∈ as, a.Inner)
    (hrun : as.foldlM (writeArtifact root) m w = (.ok m', w')) :
    Written root r (done ++ as) d w'.disk ∧
      m' = { m with artifacts := m.artifacts ++ as.map fun a => a.path.toString } := by
  induction as generalizing done m w with
  | nil =>
    cases hrun
    exact ⟨by rwa [List.append_nil], by simp⟩
  | cons a rest ih =>
    rw [List.foldlM_cons] at hrun
    obtain ⟨m₁, w₁, hone, hrest⟩ := Work.bind_eq_ok hrun
    obtain ⟨hnext, rfl⟩ := written_one h (has a List.mem_cons_self) hone
    obtain ⟨hall, rfl⟩ := ih hnext (fun b hb => has b (List.mem_cons_of_mem a hb)) hrest
    rw [List.append_assoc, List.singleton_append] at hall
    refine ⟨hall, ?_⟩
    simp [Manifest.addArtifact]

/-! ## The whole project -/

/-- what is on disk beneath a root, and in the manifest, when the scaffold was copied; `before` is the disk before anything
was done -/
structure Scaffolded (before : Disk) (template : Option Path) (root : Path) (r : Place) (m : Manifest) (d : Disk) : Prop where
  tree : d.Tree
  root : d.Holding root r .dir
  clock : before.SameClock d
  artifacts : m.artifacts = []
  listed : ∀ s, s ∈ m.scaffold ↔ ∃ names content, d.fileAt? (r ++ names) = some content ∧ s = Text.joinWith "/" names
  source : ∀ names s, d.stampAt? (r ++ names) = some s →
    ∃ dir ∈ template, before.stampAt? (before.placeOf dir ++ names) = some s
  usable : ∀ names s, d.stampAt? (r ++ names) = some s → Path.Usable ⟨"", names⟩

/-- what is reported of a template that is a directory: the files of the entries that it has, and one warning for each of
the others -/
structure Reported (before : Disk) (t : Place) (m : Manifest) : Prop where
  scaffold : ∀ s, s ∈ m.scaffold ↔ Scaffold.Listed before t (Scaffold.found before t) s
  warnings : m.warnings = Scaffold.warnings before t
  each : (Scaffold.found before t).length + m.warnings.length = 6

variable {template : Option Path} {w₁ : World}

theorem scaffolded (htree : w.disk.Tree) (hnamed : w.disk.Named) (hvacant : w.disk.Vacant root)
    (hapart : ∀ dir ∈ template, ∀ p ∈ Scaffold.directories, ¬ w.disk.placeOf dir ++ p.parts <+: w.disk.placeOf root)
    (hmade : Artifact.packageDirs.forM (fun dir => Work.makeDirs (root.join dir)) w = (.ok (), w₁))
    (h : copyScaffold template root {} w₁ = (.ok m, w')) :
    Scaffolded w.disk template root (w.disk.placeOf root) m w'.disk ∧
      ∀ dir ∈ template, (Work.isDir dir w).1 = .ok true → Reported w.disk (w.disk.placeOf dir) m := by
  have hmakes : ∀ dir ∈ Artifact.packageDirs, Work.Changes Disk.SameClock (Work.makeDirs (root.join dir)) :=
    fun dir _ => Work.sameClock_makeDirs _
  have hclock := ((Work.allows_sameClock.forM hmakes).of_run hmade).trans ((sameClock_copyScaffold template root {}).of_run h)
  rcases copyScaffold_ok htree hnamed hvacant hapart hmade h with
    ⟨dir, hdir, -, hlaid, hwarnings, hartifacts, hscaffold⟩ | ⟨hmissing, hdisk, rfl⟩
  · obtain ⟨hstart, hroot⟩ := Scaffold.laid_nil (t := w.disk.placeOf dir) hvacant htree hmade
    refine ⟨⟨hlaid.tree, hroot.mono (hlaid.here.trans hstart.here.symm) hlaid.stand, hclock, hartifacts, fun s => ?_,
      fun names s hs => ?_, hlaid.usable⟩, fun dir' hdir' _ => ?_⟩
    · rw [hscaffold]
      constructor
      · rintro ⟨p, hp, names, content, hway, hfile, hs⟩
        exact ⟨names, content, hlaid.content_iff.2 ⟨p, hp, hway, hfile⟩, hs⟩
      · rintro ⟨names, content, hfile, hs⟩
        obtain ⟨p, hp, hway, hbefore⟩ := hlaid.content_iff.1 hfile
        exact ⟨p, hp, names, content, hway, hbefore, hs⟩
    · obtain ⟨p, -, -, hbefore⟩ := (hlaid.files names s).1 hs
      exact ⟨dir, hdir, hbefore⟩
    · cases Option.some.inj (hdir.symm.trans hdir')
      exact ⟨hscaffold, hwarnings, by rw [hwarnings, Scaffold.found_add_warnings]; rfl⟩
  · obtain ⟨hstart, hroot⟩ := Scaffold.laid_nil (t := w.disk.placeOf root) hvacant htree hmade
    have hnone : ∀ names s, w₁.disk.stampAt? (w.disk.placeOf root ++ names) ≠ some s := fun names s hs =>
      let ⟨_, hmem, _⟩ := (hstart.files names s).1 hs
      nomatch hmem
    have hnofile : ∀ names content, w₁.disk.fileAt? (w.disk.placeOf root ++ names) ≠ some content := fun names content hfile =>
      let ⟨time, hs⟩ := Disk.fileAt?_eq_some_iff_stamped.1 hfile
      hnone names (content, time) hs
    rw [hdisk] at hclock ⊢
    refine ⟨⟨hstart.tree, hroot, hclock, rfl, fun s => ?_, fun names s hs => absurd hs (hnone names s), hstart.usable⟩,
      fun dir hdir hthere => ?_⟩
    · exact ⟨nofun, fun ⟨names, content, hfile, _⟩ => absurd hfile (hnofile names content)⟩
    · -- a template that was there at first is still there
      obtain ⟨q, e, hholding, he⟩ := Work.isDir_iff.1 hthere
      cases e <;> cases he
      have hexists : (Work.exists? dir w₁).1 = .ok true :=
        Work.exists?_iff.2 ⟨q, .dir, hholding.mono hstart.here fun q hq => hstart.kept q _ hq, rfl⟩
      cases hexists.symm.trans (hmissing dir hdir)

/-- the files beneath the root hold the last artifact for their path, with the present time, or else what the template has
there, with the time that it has there, and the manifest lists them: the files of the scaffold and the paths of the
artifacts, each once, in ascending order -/
structure Delivered (before : Disk) (template : Option Path) (as : List Artifact) (r : Place) (m : Manifest) (d : Disk) :
    Prop where
  ascending : m.files.Pairwise (· < ·)
  together : ∀ s, s ∈ m.files ↔ s ∈ m.scaffold ∨ ∃ a ∈ as, s = a.path.toString
  file : ∀ s, s ∈ m.files ↔ ∃ names content, d.fileAt? (r ++ names) = some content ∧ s = Text.joinWith "/" names
  last : ∀ names a, last? as names = some a → d.stampAt? (r ++ names) = some (a.content.toUTF8, before.now)
  rest : ∀ names s, last? as names = none → d.stampAt? (r ++ names) = some s →
    ∃ dir ∈ template, before.stampAt? (before.placeOf dir ++ names) = some s
  clock : before.SameClock d

/-- the files of a project have dates when the present has one, and each file that was there before -/
theorem Delivered.dated {before : Disk} (h : Delivered before template as r m d)
    (hnow : Archive.isDatable (before.clock before.now) = true)
    (hbefore : ∀ q s, before.stampAt? q = some s → Archive.isDatable (before.clock s.2) = true) {names : List String}
    {s : ByteArray × Int} (hs : d.stampAt? (r ++ names) = some s) :
    Archive.firstMoment ≤ d.clock s.2 ∧ d.clock s.2 < Archive.pastMoment := by
  rw [← Archive.isDatable_iff, h.clock.clock]
  cases hlast : last? as names with
  | some a =>
    cases hs.symm.trans (h.last names a hlast)
    exact hnow
  | none =>
    obtain ⟨dir, -, hthere⟩ := h.rest names s hlast hs
    exact hbefore _ s hthere

/-- an archive is created exactly if a file is listed and an archive can take all of them; then it lists the same files, holds
their contents, and leaves them as they are -/
structure Archived (level : Int) (root zip : Path) (r : Place) (m : Manifest) (w : World) : Prop where
  created_iff : (∃ result w', Archive.create level root zip w = (.ok result, w')) ↔
    m.files ≠ [] ∧ Archive.Acceptable w.disk r
  agrees : ∀ result w', Archive.create level root zip w = (.ok result, w') → result.entries = m.files ∧
    (∃ bytes, w'.disk.fileAt? (w.disk.placeOf zip) = some bytes ∧ Archive.Holds bytes m.files w.disk r) ∧
    ∀ names, w'.disk.fileAt? (r ++ names) = w.disk.fileAt? (r ++ names)

section

variable {start : Disk} {m₀ : Manifest}

/-- what the files hold when the artifacts were written -/
theorem Written.content (h : Written root r as d w.disk) (names : List String) :
    w.disk.fileAt? (r ++ names) = ((last? as names).map fun a => a.content.toUTF8).or (d.fileAt? (r ++ names)) := by
  rw [← Disk.map_fst_stampAt?, h.files, ← Disk.map_fst_stampAt? d]
  cases last? as names <;> rfl

/-- what is listed when the artifacts were written are the files beneath the root -/
theorem file_of_written (hscaffold : Scaffolded start template root r m₀ d) (has : ∀ a ∈ as, a.Inner)
    (hwritten : Written root r as d w.disk) {s : String} :
    (s ∈ m₀.scaffold ∨ ∃ a ∈ as, s = a.path.toString) ↔
      ∃ names content, w.disk.fileAt? (r ++ names) = some content ∧ s = Text.joinWith "/" names := by
  have htext : ∀ a ∈ as, a.path.toString = Text.joinWith "/" a.path.parts := fun a ha =>
    (has a ha).toString_eq (hwritten.fits a ha).1
  constructor
  · rintro (hs | ⟨a, ha, rfl⟩)
    · obtain ⟨names, content, hfile, rfl⟩ := (hscaffold.listed s).1 hs
      have hthere := hwritten.content names
      rw [hfile] at hthere
      cases hlast : last? as names with
      | none => exact ⟨names, content, by rw [hthere, hlast]; rfl, rfl⟩
      | some b => exact ⟨names, b.content.toUTF8, by rw [hthere, hlast]; rfl, rfl⟩
    · obtain ⟨b, hlast⟩ := Option.isSome_iff_exists.1 (Artifact.last?_isSome.2 ⟨a, ha, rfl⟩)
      exact ⟨a.path.parts, b.content.toUTF8, by rw [hwritten.content, hlast]; rfl, htext a ha⟩
  · rintro ⟨names, content, hfile, rfl⟩
    rw [hwritten.content] at hfile
    cases hlast : last? as names with
    | none =>
      rw [hlast] at hfile
      exact Or.inl ((hscaffold.listed _).2 ⟨names, content, hfile, rfl⟩)
    | some b =>
      obtain ⟨a, ha, rfl⟩ := Artifact.last?_isSome.1 (by rw [hlast]; rfl)
      exact Or.inr ⟨a, ha, (htext a ha).symm⟩

theorem listable_of_written (hnamed : start.Named) (hscaffold : Scaffolded start template root r m₀ d)
    (has : ∀ a ∈ as, a.Inner) (hwritten : Written root r as d w.disk) : w.disk.Listable r := by
  -- what holds of the paths of artifacts and of the files of the scaffold holds of all files
  have heither : ∀ {P : List String → Prop}, (∀ a ∈ as, P a.path.parts) →
      (∀ names s, d.stampAt? (r ++ names) = some s → P names) →
      ∀ names content, w.disk.fileAt? (r ++ names) = some content → P names := by
    intro P hartifact hfiles names content hfile
    rw [hwritten.content] at hfile
    cases hlast : last? as names with
    | none =>
      rw [hlast] at hfile
      obtain ⟨time, hs⟩ := Disk.fileAt?_eq_some_iff_stamped.1 hfile
      exact hfiles names _ hs
    | some b =>
      obtain ⟨a, ha, rfl⟩ := Artifact.last?_isSome.1 (by rw [hlast]; rfl)
      exact hartifact a ha
  refine ⟨hwritten.tree, hwritten.root.2.2, heither (fun a ha => (has a ha).isName) fun names s hs => ?_,
    heither (fun a ha => (hwritten.fits a ha).2) hscaffold.usable⟩
  obtain ⟨dir, -, hbefore⟩ := hscaffold.source names s hs
  obtain ⟨mode, hentry⟩ := Disk.fileAt?_eq_some_iff.1 (Disk.stampAt?_eq_some_iff.1 hbefore).1
  exact fun name hname => hnamed _ _ hentry name (List.mem_append_right _ hname)

/-- **The archive of a root** whose files a manifest lists. -/
theorem archived_of_listable {level : Int} {zip : Path} (hlistable : w.disk.Listable r) (hroot : w.disk.Holding root r .dir)
    (hascending : m.files.Pairwise (· < ·))
    (hfile : ∀ s, s ∈ m.files ↔ ∃ names content, w.disk.fileAt? (r ++ names) = some content ∧ s = Text.joinWith "/" names)
    (hlevel : Archive.isLevel level = true) {c : ByteArray} (hzip : (Work.save zip c w).1 = .ok ())
    (hapart : ¬ r <+: w.disk.placeOf zip) : Archived level root zip r m w := by
  have hnames : (Archive.members w.disk r).map Archive.Member.name = m.files := by
    refine Text.ascending_ext (Archive.ascending_members hlistable) hascending fun s => ?_
    rw [hfile, List.mem_map]
    constructor
    · rintro ⟨member, hmember, rfl⟩
      obtain ⟨names, hcontent, hname, -⟩ := (Archive.mem_members hlistable).1 hmember
      exact ⟨names, member.content, hcontent, hname⟩
    · rintro ⟨names, content, hcontent, rfl⟩
      exact ⟨⟨_, content, _⟩, (Archive.mem_members hlistable).2 ⟨names, hcontent, rfl, rfl⟩, rfl⟩
  have hsome : m.files ≠ [] ↔ Archive.members w.disk r ≠ [] := by
    rw [← hnames]
    exact not_congr List.map_eq_nil_iff
  have hcreated : m.files ≠ [] ∧ Archive.Acceptable w.disk r → ∃ result w', Archive.create level root zip w = (.ok result, w') ∧
      result.entries = (Archive.members w.disk r).map Archive.Member.name ∧
      ∃ time, Disk.Wrote (w.disk.placeOf zip) (⟨(Archive.encode (Archive.members w.disk r)).toArray⟩, time) w.disk w'.disk :=
    fun h => Archive.create_ok hlistable hroot hlevel hzip h.2 (hsome.1 h.1)
  have hneeded : ∀ result w', Archive.create level root zip w = (.ok result, w') →
      m.files ≠ [] ∧ Archive.Acceptable w.disk r := fun result w' hcreate =>
    (Archive.of_create hlistable hroot hlevel hcreate).imp_left hsome.2
  refine ⟨⟨fun ⟨result, w', hcreate⟩ => hneeded result w' hcreate, fun h => ?_⟩, fun result w' hcreate => ?_⟩
  · obtain ⟨result, w', hcreate, -⟩ := hcreated h
    exact ⟨result, w', hcreate⟩
  · have hacceptable := (hneeded result w' hcreate).2
    obtain ⟨result', w'', hcreate', hentries, time, hwrote⟩ := hcreated (hneeded result w' hcreate)
    cases hcreate.symm.trans hcreate'
    refine ⟨hentries.trans hnames, ⟨_, hwrote.content, hnames ▸ Archive.holds_encode hlistable hacceptable⟩, fun names => ?_⟩
    exact Disk.fileAt?_congr (hwrote.other _ fun heq => hapart (heq ▸ List.prefix_append r names))

end

/-- **Disk, manifest and archive agree.** -/
theorem disk_manifest_archive_agree (htree : w.disk.Tree) (hnamed : w.disk.Named) (hvacant : w.disk.Vacant root)
    (hapart : ∀ dir ∈ template, ∀ p ∈ Scaffold.directories, ¬ w.disk.placeOf dir ++ p.parts <+: w.disk.placeOf root)
    (has : ∀ a ∈ as, a.Inner) (h : assemble template as root w = (.ok m, w')) :
    Delivered w.disk template as (w.disk.placeOf root) m w'.disk ∧
      (∀ dir ∈ template, (Work.isDir dir w).1 = .ok true → Reported w.disk (w.disk.placeOf dir) m) ∧
      ∀ level zip, Archive.isLevel level = true → (Work.save zip ⟨#[]⟩ w').1 = .ok () →
        ¬ w.disk.placeOf root <+: w'.disk.placeOf zip → Archived level root zip (w.disk.placeOf root) m w' := by
  obtain ⟨_, w₁, hmade, h⟩ := Work.bind_eq_ok h
  obtain ⟨m₀, w₂, hcopied, hrun⟩ := Work.bind_eq_ok h
  obtain ⟨hscaffold, hreported⟩ := scaffolded htree hnamed hvacant hapart hmade hcopied
  have hstart : Written root (w.disk.placeOf root) [] w₂.disk w₂.disk :=
    ⟨hscaffold.tree, hscaffold.root, rfl, Disk.SameClock.refl _, fun names => rfl, nofun⟩
  obtain ⟨hwritten, rfl⟩ := written_all hstart has hrun
  rw [List.nil_append] at hwritten
  have htogether : ∀ s, s ∈ (⟨m₀.scaffold, m₀.artifacts ++ as.map fun a => a.path.toString, m₀.warnings⟩ : Manifest).files ↔
      s ∈ m₀.scaffold ∨ ∃ a ∈ as, s = a.path.toString := by
    intro s
    rw [Manifest.mem_files, hscaffold.artifacts, List.nil_append, List.mem_map]
    simp only [eq_comm]
  have hfile := fun s => (htogether s).trans (file_of_written hscaffold has hwritten)
  refine ⟨⟨Manifest.ascending_files _, htogether, hfile, fun names a hlast => ?_, fun names s hlast hs => ?_,
    hscaffold.clock.trans hwritten.clock⟩, fun dir hdir hthere => ?_, fun level zip hlevel hzip hzipApart => ?_⟩
  · rw [hwritten.files, hlast, hscaffold.clock.now]
    rfl
  · rw [hwritten.files, hlast] at hs
    exact hscaffold.source names s hs
  · obtain ⟨hlisted, hwarnings, heach⟩ := hreported dir hdir hthere
    exact ⟨hlisted, hwarnings, heach⟩
  · exact archived_of_listable (listable_of_written hnamed hscaffold has hwritten) hwritten.root
      (Manifest.ascending_files _) hfile hlevel hzip hzipApart

end Project

/-- a disk with a template that has one of the entries, and with a file that has nothing to do with it, all of one time -/
def shelf (time : Int) : World where
  disk := {
    items := [(["t"], ⟨.dir, time⟩), (["t", "pom.xml"], ⟨.file "kept".toUTF8 0o644, time⟩),
      (["t", "note"], ⟨.file "".toUTF8 0o644, time⟩)]
    now := 1700000000000000 }

theorem tree_shelf (time : Int) : (shelf time).disk.Tree := by
  have hparents : ∀ q e, (shelf time).disk.get? q = some e → (shelf time).disk.get? q.dropLast = some .dir :=
    Disk.forall_get? rfl (by simp [shelf, Disk.get?, Table.get?])
  refine ⟨?_, fun {q e} => hparents q e⟩
  show [["t"], ["t", "pom.xml"], ["t", "note"]].Nodup
  decide

theorem named_shelf (time : Int) : (shelf time).disk.Named :=
  Disk.forall_get? (by decide) (by simp only [shelf, List.forall_mem_cons]; decide)

theorem vacant_shelf (time : Int) : (shelf time).disk.Vacant ⟨"/", ["out"]⟩ := by
  refine ⟨Or.inl (by decide), fun names hne => ?_⟩
  have hplace : (shelf time).disk.placeOf ⟨"/", ["out"]⟩ = ["out"] := rfl
  rw [hplace]
  simp [shelf, Disk.get?, Table.get?]

theorem time_shelf {time : Int} {q : Place} {s : ByteArray × Int} (h : (shelf time).disk.stampAt? q = some s) : s.2 = time := by
  obtain ⟨hfile, htime⟩ := Disk.stampAt?_eq_some_iff.1 h
  obtain ⟨mode, hentry⟩ := Disk.fileAt?_eq_some_iff.1 hfile
  have hnil : q ≠ [] := Disk.ne_nil_of_get? (by rw [hentry]; nofun)
  rw [Disk.get?, if_neg hnil] at hentry
  obtain ⟨stamped, hstamped, -⟩ := Option.map_eq_some_iff.1 hentry
  have hmem : ∀ i ∈ (shelf time).disk.items, i.2.time = time := by simp [shelf]
  rw [← htime, Disk.timeOf, hstamped]
  exact hmem _ (Table.mem_of_get? hstamped)

/-- two artifacts with one path, which the template has too -/
def parcel : List Artifact := [⟨⟨"", ["pom.xml"]⟩, "", "first"⟩, ⟨⟨"", ["pom.xml"]⟩, "", "last"⟩]

theorem inner_parcel : ∀ a ∈ parcel, a.Inner := by
  have hpath : (⟨"", ["pom.xml"]⟩ : Path) = Path.ofString "pom.xml" := by decide +kernel
  simp only [parcel, List.forall_mem_cons]
  exact ⟨⟨by decide, by decide, _, hpath⟩, ⟨by decide, by decide, _, hpath⟩, fun a ha => absurd ha List.not_mem_nil⟩

/-- the only member for a file that is all there is -/
theorem members_singleton {d : Disk} {r : Place} {name : String} {content : ByteArray} {time : Int}
    (hfiles : d.filesUnder r = [([name], content)]) (htime : d.clock (d.timeOf (r ++ [name])) = time) :
    Archive.members d r = [⟨name, content, time⟩] := by
  rw [Archive.members, hfiles, Work.inOrder, List.mergeSort_singleton, Archive.membersOf, List.map_singleton,
    List.mergeSort_singleton, htime]
  rfl

/-- a manifest that lists one file, however often -/
theorem files_singleton {m : Manifest} {name : String} (h : Text.distinct (m.scaffold ++ m.artifacts) = [name]) :
    m.files = [name] := by
  rw [Manifest.files, h, Text.sort, List.mergeSort_singleton]

theorem eq_ok_of_toOption {ε α : Type} {x : Except ε α} {a : α} (h : x.toOption = some a) : x = .ok a := by
  cases x <;> cases h
  rfl

theorem parcel_delivered : ∃ m w' result w'',
    Project.assemble (some ⟨"/", ["t"]⟩) parcel ⟨"/", ["out"]⟩ (shelf 1600000000000000) = (.ok m, w') ∧ m.files = ["pom.xml"] ∧
      m.warnings.length = 5 ∧ w'.disk.stampAt? ["out", "pom.xml"] = some ("last".toUTF8, 1700000000000000) ∧
      Archive.create 9 ⟨"/", ["out"]⟩ ⟨"/", ["out.zip"]⟩ w' = (.ok result, w'') ∧ result.entries = ["pom.xml"] := by
  -- what the run comes to, but for the order of the files
  have hrun : (Project.assemble (some ⟨"/", ["t"]⟩) parcel ⟨"/", ["out"]⟩ (shelf 1600000000000000)).1.toOption.map
      (fun m => m.scaffold ++ m.artifacts) = some ["pom.xml", "pom.xml", "pom.xml"] := by decide +kernel
  have hfiles : (Project.assemble (some ⟨"/", ["t"]⟩) parcel ⟨"/", ["out"]⟩ (shelf 1600000000000000)).2.disk.filesUnder ["out"] =
      [(["pom.xml"], "last".toUTF8)] := by decide +kernel
  have htime : (fun d : Disk => d.clock (d.timeOf ["out", "pom.xml"]))
      (Project.assemble (some ⟨"/", ["t"]⟩) parcel ⟨"/", ["out"]⟩ (shelf 1600000000000000)).2.disk = 1700000000000000 := by decide +kernel
  have hzip : (Work.save ⟨"/", ["out.zip"]⟩ ⟨#[]⟩
      (Project.assemble (some ⟨"/", ["t"]⟩) parcel ⟨"/", ["out"]⟩ (shelf 1600000000000000)).2).1.toOption = some () := by decide +kernel
  have hplace : (Project.assemble (some ⟨"/", ["t"]⟩) parcel ⟨"/", ["out"]⟩ (shelf 1600000000000000)).2.disk.placeOf ⟨"/", ["out.zip"]⟩ =
      ["out.zip"] := rfl
  rcases hassemble : Project.assemble (some ⟨"/", ["t"]⟩) parcel ⟨"/", ["out"]⟩ (shelf 1600000000000000) with ⟨outcome, w'⟩
  rw [hassemble] at hrun hfiles htime hzip hplace
  cases outcome with
  | error f => cases hrun
  | ok m =>
  have hmembers := members_singleton hfiles htime
  have hlisted : m.scaffold ++ m.artifacts = ["pom.xml", "pom.xml", "pom.xml"] := Option.some.inj hrun
  have hmanifest : m.files = ["pom.xml"] := files_singleton (by rw [hlisted]; rfl)
  obtain ⟨hdelivered, hreported, harchived⟩ :=
    Project.disk_manifest_archive_agree (tree_shelf _) (named_shelf _) (vacant_shelf _) (by decide) inner_parcel hassemble
  have harchived := harchived 9 ⟨"/", ["out.zip"]⟩ (by decide) (eq_ok_of_toOption hzip) (by rw [hplace]; decide)
  have hacceptable : Archive.Acceptable w'.disk ["out"] := by
    refine ⟨fun names s hs => hdelivered.dated (by decide) (fun q s hq => ?_) hs, by rw [hmembers]; decide +kernel,
      by rw [hmembers]; decide +kernel⟩
    rw [time_shelf hq]
    decide
  have heach := (hreported ⟨"/", ["t"]⟩ rfl rfl).each
  have hfound : (Scaffold.found (shelf 1600000000000000).disk ((shelf 1600000000000000).disk.placeOf ⟨"/", ["t"]⟩)).length = 1 := by
    decide +kernel
  obtain ⟨result, w'', hcreate⟩ := harchived.created_iff.2 ⟨by rw [hmanifest]; decide, hacceptable⟩
  exact ⟨m, w', result, w'', rfl, hmanifest, by omega, hdelivered.last ["pom.xml"] _ rfl, hcreate,
    (harchived.agrees result w'' hcreate).1.trans hmanifest⟩

/-- **A template from before 1980** is copied as it is, and then cannot be archived. -/
theorem shelf_not_archived : ∃ m w', Project.assemble (some ⟨"/", ["t"]⟩) [] ⟨"/", ["out"]⟩ (shelf 0) = (.ok m, w') ∧
    m.files = ["pom.xml"] ∧ (Work.save ⟨"/", ["out.zip"]⟩ ⟨#[]⟩ w').1 = .ok () ∧
    (Archive.create 9 ⟨"/", ["out"]⟩ ⟨"/", ["out.zip"]⟩ w').1 =
      .error (.badValue "ZIP does not support timestamps before 1980") := by
  have hrun : (Project.assemble (some ⟨"/", ["t"]⟩) [] ⟨"/", ["out"]⟩ (shelf 0)).1.toOption.map
      (fun m => m.scaffold ++ m.artifacts) = some ["pom.xml"] := by decide +kernel
  have hroot : (Work.isDir ⟨"/", ["out"]⟩
      (Project.assemble (some ⟨"/", ["t"]⟩) [] ⟨"/", ["out"]⟩ (shelf 0)).2).1.toOption = some true := by decide +kernel
  have hplace : (Project.assemble (some ⟨"/", ["t"]⟩) [] ⟨"/", ["out"]⟩ (shelf 0)).2.disk.placeOf ⟨"/", ["out"]⟩ =
      ["out"] := rfl
  have hfiles : (Project.assemble (some ⟨"/", ["t"]⟩) [] ⟨"/", ["out"]⟩ (shelf 0)).2.disk.filesUnder ["out"] =
      [(["pom.xml"], "kept".toUTF8)] := by decide +kernel
  have htime : (fun d : Disk => d.clock (d.timeOf ["out", "pom.xml"]))
      (Project.assemble (some ⟨"/", ["t"]⟩) [] ⟨"/", ["out"]⟩ (shelf 0)).2.disk = 0 := by decide +kernel
  have hzip : (Work.save ⟨"/", ["out.zip"]⟩ ⟨#[]⟩
      (Project.assemble (some ⟨"/", ["t"]⟩) [] ⟨"/", ["out"]⟩ (shelf 0)).2).1.toOption = some () := by decide +kernel
  rcases hassemble : Project.assemble (some ⟨"/", ["t"]⟩) [] ⟨"/", ["out"]⟩ (shelf 0) with ⟨outcome, w'⟩
  rw [hassemble] at hrun hroot hplace hfiles htime hzip
  cases outcome with
  | error f => cases hrun
  | ok m =>
  have hlisted : m.scaffold ++ m.artifacts = ["pom.xml"] := Option.some.inj hrun
  obtain ⟨q, e, hholding, he⟩ := Work.isDir_iff.1 (eq_ok_of_toOption hroot)
  cases e <;> cases he
  obtain rfl := (Disk.placeOf_of_locate hholding.2.1).trans hplace
  have hsaved := eq_ok_of_toOption hzip
  have hrefused := Archive.writeMembers_undated (show Archive.isLevel 9 = true by decide)
    (show ∀ m ∈ ([] : List Archive.Member), Archive.isDatable m.time = true from fun m hm => absurd hm List.not_mem_nil)
    (by decide) (show Archive.isDatable (Archive.Member.mk "pom.xml" "kept".toUTF8 0).time = false by decide) [] hsaved
  rw [List.nil_append, ← members_singleton hfiles htime] at hrefused
  refine ⟨m, w', rfl, files_singleton (by rw [hlisted]; rfl), hsaved, ?_⟩
  rcases hwrite : Archive.writeMembers 9 (Archive.members w'.disk ["out"]) ⟨"/", ["out.zip"]⟩ w' with ⟨r, w''⟩
  rw [hwrite] at hrefused
  cases hrefused
  rw [Archive.create_eq hholding, Work.bind_error hwrite]
  rfl

end Classwright
