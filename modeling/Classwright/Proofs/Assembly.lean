/-
Putting the files of a diagram into an empty directory.

The generated files are written one after the other, each into a directory that is made for it. What is on disk after some
of them is known exactly: each of these files with its own content, nothing in the places of those to come, and beside them
directories only. So an empty directory ends up with one file for each generated one, as long as their paths are distinct.

- `Artifact.ClearOf`: neither path leads through the other; `Artifact.exists_file`: no file is named like a folder on the way
  to another, so files with distinct paths are clear of each other;
- `Disk.Holds`: what is on disk after some of the files; `Holds.widened`, `Holds.put`: directories and the next file keep it;
- `Project.writeArtifact_ok`, `Project.assemble_ok`: one file, and all files, are written;
- `one_file_each`: how many files a diagram has, when their paths are distinct, and that then each of them is on the disk.
-/
import Mathlib.Data.Set.Card
import Classwright.Proofs.Files
import Classwright.Proofs.Making

namespace Classwright

/-! ## Files that are not in each other's way -/

namespace Artifact

/-- neither path leads through the other -/
def ClearOf (a b : Artifact) : Prop := ¬ a.path.parts <+: b.path.parts ∧ ¬ b.path.parts <+: a.path.parts

/-- a name with a dot and a letter: no folder of a generated file is called so -/
def IsFileName (name : String) : Prop :=
  '.' ∈ name.toList ∧ ∃ c ∈ name.toList, Naming.isAsciiAlphanumeric c = true

namespace FileKind

theorem isFileName {k : FileKind} (h : k ∈ all) (s : String) : IsFileName (s ++ k.ending) := by
  have hending : '.' ∈ k.ending.toList ∧ 'j' ∈ k.ending.toList := by
    revert k
    decide
  rw [IsFileName, String.toList_append]
  exact ⟨List.mem_append_right _ hending.1, 'j', List.mem_append_right _ hending.2, by decide⟩

theorem not_isFileName_dir {k : FileKind} (h : k ∈ all) : ∀ name ∈ k.dir.parts, ¬ IsFileName name := by
  have hdot : ∀ name ∈ k.dir.parts, '.' ∉ name.toList := by
    revert k
    decide
  exact fun name hname hfile => hdot name hname hfile.1

end FileKind

theorem not_isFileName_folder (label : String) :
    ∀ name ∈ Path.folders (Naming.identifier label), ¬ IsFileName name := by
  rintro name hname ⟨-, c, hc, halpha⟩
  rw [not_alphanumeric_of_mem_folders hname hc] at halpha
  cases halpha

/-- **A path ends in its file.** The last name of a generated path is one of a file, and no other is. -/
theorem exists_file {policy : Policy} {d : Diagram} {p : Plan} (h : Plan.build policy d = .ok p) {a : Artifact}
    (ha : a ∈ ofPlan p) :
    ∃ front file, a.path.parts = front ++ [file] ∧ IsFileName file ∧ ∀ name ∈ front, ¬ IsFileName name := by
  have hmem : a.path ∈ p.files.map fun x => x.2.path x.1 := Plan.paths_ofPlan h ▸ List.mem_map_of_mem ha
  obtain ⟨⟨_, k⟩, hx, hpath⟩ := List.mem_map.1 hmem
  obtain ⟨e, he, rfl, hk⟩ := Plan.mem_files.1 hx
  have hall : k ∈ FileKind.all := Plan.mem_all_of_mem_kindsOf hk
  have hclass : e.name ∈ d.nameTable.names := Plan.names_of_build h ▸ List.mem_map_of_mem he
  obtain ⟨n, -, hn⟩ := (NameTable.mem_names_ofDiagram d _).1 hclass
  rw [← hpath]
  dsimp only
  rw [FileKind.path_eq hall, ← hn]
  refine ⟨_, _, (List.append_assoc ..).symm, FileKind.isFileName hall _, fun name hname => ?_⟩
  rcases List.mem_append.1 hname with hdir | hfolder
  · split_ifs at hdir
    · exact FileKind.not_isFileName_dir hall name hdir
    · cases hdir
  · exact not_isFileName_folder n.label name hfolder

theorem parts_ne_nil {policy : Policy} {d : Diagram} {p : Plan} (h : Plan.build policy d = .ok p) {a : Artifact}
    (ha : a ∈ ofPlan p) : a.path.parts ≠ [] := by
  obtain ⟨front, file, hfront, -, -⟩ := exists_file h ha
  rw [hfront]
  exact List.append_ne_nil_of_right_ne_nil front (List.cons_ne_nil file [])

/-- files with distinct paths are clear of each other -/
theorem pairwise_clear {policy : Policy} {d : Diagram} {p : Plan} (h : Plan.build policy d = .ok p)
    (hrelative : ∀ a ∈ ofPlan p, a.path.isAbsolute = false) (hnodup : ((ofPlan p).map Artifact.path).Nodup) :
    (ofPlan p).Pairwise ClearOf := by
  have hsame : ∀ a ∈ ofPlan p, ∀ b ∈ ofPlan p, a.path.parts <+: b.path.parts → a.path = b.path := by
    intro a ha b hb hab
    obtain ⟨front, file, hfront, hfile, -⟩ := exists_file h ha
    obtain ⟨front', file', hfront', -, hfolders⟩ := exists_file h hb
    rw [hfront'] at hab
    rcases List.prefix_concat_iff.1 hab with heq | hab
    · have hroot : ∀ a ∈ ofPlan p, a.path.root = "" := fun a ha => by
        have habsolute := hrelative a ha
        unfold Path.isAbsolute at habsolute
        simpa using habsolute
      exact Path.mk.injEq .. |>.mpr ⟨(hroot a ha).trans (hroot b hb).symm, heq.trans hfront'.symm⟩
    · rw [hfront] at hab
      exact absurd hfile (hfolders file (hab.subset (List.mem_append_right _ List.mem_cons_self)))
  refine (List.pairwise_map.1 hnodup).imp_of_mem fun ha hb hne => ⟨fun hab => ?_, fun hba => ?_⟩
  · exact hne (hsame _ ha _ hb hab)
  · exact hne (hsame _ hb _ ha hba).symm

/-- no file is on the way to a package -/
theorem not_above_package {policy : Policy} {d : Diagram} {p : Plan} (h : Plan.build policy d = .ok p) {a : Artifact}
    (ha : a ∈ ofPlan p) {dir : Path} (hdir : dir ∈ packageDirs) : ¬ a.path.parts <+: dir.parts := by
  obtain ⟨front, file, hfront, hfile, -⟩ := exists_file h ha
  intro hbelow
  rw [hfront] at hbelow
  have hdot : ∀ dir ∈ packageDirs, ∀ name ∈ dir.parts, '.' ∉ name.toList := by decide
  exact hdot dir hdir file (hbelow.subset (List.mem_append_right _ List.mem_cons_self)) hfile.1

/-- what a file is on disk -/
def entry (a : Artifact) : Entry := .file a.content.toUTF8 Entry.defaultMode

end Artifact

/-! ## What is on disk after some of the files -/

/-- below a place there are the files `done`, nothing where those of `todo` belong, and besides nothing but directories -/
structure Disk.Holds (d : Disk) (r : Place) (done todo : List Artifact) : Prop where
  there : ∀ a ∈ done, d.get? (r ++ a.path.parts) = some a.entry
  vacant : ∀ a ∈ todo, d.get? (r ++ a.path.parts) = none
  only : ∀ q e, d.get? (r ++ q) = some e → e = .dir ∨ ∃ a ∈ done, q = a.path.parts ∧ e = a.entry

namespace Disk.Holds

open Artifact (ClearOf)

variable {d d' : Disk} {r : Place} {done todo : List Artifact}

/-- an empty directory -/
theorem of_empty (hdir : d.get? r = some .dir) (hempty : ∀ q, q ≠ [] → d.get? (r ++ q) = none)
    (htodo : ∀ a ∈ todo, a.path.parts ≠ []) : d.Holds r [] todo where
  there := nofun
  vacant := fun a ha => hempty _ (htodo a ha)
  only := by
    intro q e hq
    by_cases hne : q = []
    · rw [hne, List.append_nil, hdir] at hq
      exact Or.inl (Option.some.inj hq).symm
    · rw [hempty q hne] at hq
      cases hq

/-- on a way down that no file is on, there is a directory or nothing -/
theorem way (h : d.Holds r done todo) {names : List String} (hdone : ∀ a ∈ done, ¬ a.path.parts <+: names) :
    ∀ front, front <+: names → d.get? (r ++ front) = some .dir ∨ d.get? (r ++ front) = none := by
  intro front hfront
  cases hentry : d.get? (r ++ front) with
  | none => exact Or.inr rfl
  | some e =>
    rcases h.only front e hentry with rfl | ⟨a, ha, rfl, -⟩
    · exact Or.inl rfl
    · exact absurd hfront (hdone a ha)

/-- new directories on a way that no file to come is on -/
theorem widened (h : d.Holds r done todo) {names : List String} (hnew : Disk.Widened (Work.OnWay r names) d d')
    (htodo : ∀ a ∈ todo, ¬ a.path.parts <+: names) : d'.Holds r done todo where
  there := fun a ha => hnew.get? (h.there a ha)
  vacant := by
    intro a ha
    rcases hnew.entry (r ++ a.path.parts) with heq | ⟨⟨front, hfront, heq⟩, -, -⟩
    · rw [heq, h.vacant a ha]
    · rw [← List.append_cancel_left heq] at hfront
      exact absurd hfront (htodo a ha)
  only := by
    intro q e hq
    rcases hnew.entry (r ++ q) with heq | ⟨-, -, hdir⟩
    · rw [heq] at hq
      exact h.only q e hq
    · rw [hdir] at hq
      exact Or.inl (Option.some.inj hq).symm

/-- the next file is put in its place -/
theorem put {a : Artifact} (h : d.Holds r done (a :: todo)) (hne : a.path.parts ≠ []) (hdone : ∀ b ∈ done, ClearOf b a)
    (htodo : ∀ b ∈ todo, ClearOf a b) : (d.put (r ++ a.path.parts) a.entry).Holds r (done ++ [a]) todo := by
  have hplace : r ++ a.path.parts ≠ [] := by simp [hne]
  have hself := Disk.get?_put_self d a.entry hplace
  have hother : ∀ {q}, a.path.parts ≠ q → (d.put (r ++ a.path.parts) a.entry).get? (r ++ q) = d.get? (r ++ q) :=
    fun hq => Disk.get?_put_of_ne d a.entry fun heq => hq (List.append_cancel_left heq)
  refine ⟨fun b hb => ?_, fun b hb => ?_, fun q e hq => ?_⟩
  · rcases List.mem_append.1 hb with hb | hb
    · rw [hother fun heq => (hdone b hb).2 (heq ▸ List.prefix_refl _), h.there b hb]
    · rw [List.mem_singleton.1 hb, hself]
  · rw [hother fun heq => (htodo b hb).1 (heq ▸ List.prefix_refl _), h.vacant b (List.mem_cons_of_mem a hb)]
  · by_cases hpath : a.path.parts = q
    · rw [← hpath, hself] at hq
      exact Or.inr ⟨a, by simp, hpath.symm, (Option.some.inj hq).symm⟩
    · rw [hother hpath] at hq
      exact (h.only q e hq).imp id fun ⟨b, hb, hrest⟩ => ⟨b, List.mem_append_left _ hb, hrest⟩

/-- in the end there are the files, and no others -/
theorem file_iff (h : d.Holds r done todo) (q : List String) :
    (∃ content mode, d.get? (r ++ q) = some (.file content mode)) ↔ q ∈ done.map fun a => a.path.parts := by
  constructor
  · rintro ⟨content, mode, hq⟩
    rcases h.only q _ hq with hdir | ⟨a, ha, rfl, -⟩
    · cases hdir
    · exact List.mem_map_of_mem ha
  · intro hq
    obtain ⟨a, ha, rfl⟩ := List.mem_map.1 hq
    exact ⟨_, _, h.there a ha⟩

/-- as many files as there are generated ones, when these have distinct paths -/
theorem ncard_files (h : d.Holds r done todo) (hnodup : (done.map fun a => a.path.parts).Nodup) :
    {q | ∃ content mode, d.get? (r ++ q) = some (.file content mode)}.ncard = done.length := by
  have hset : {q | ∃ content mode, d.get? (r ++ q) = some (.file content mode)} =
      ((done.map fun a => a.path.parts).toFinset : Set (List String)) := by
    ext q
    rw [Set.mem_ofPred_eq, h.file_iff, List.coe_toFinset, Set.mem_ofPred_eq]
  rw [hset, Set.ncard_coe_finset, List.toFinset_card_of_nodup hnodup, List.length_map]

end Disk.Holds

/-! ## Putting the files there -/

/-- what can be put below a root: a path that does not begin at the top, with names that a disk takes -/
structure Path.Takes (root p : Path) : Prop where
  relative : p.isAbsolute = false
  fits : root.Fits p.parts

instance (root p : Path) : Decidable (root.Takes p) :=
  decidable_of_iff (p.isAbsolute = false ∧ root.Fits p.parts) ⟨fun h => ⟨h.1, h.2⟩, fun h => ⟨h.relative, h.fits⟩⟩

theorem Path.Takes.join_eq {root p : Path} (h : root.Takes p) : root.join p = root.below p.parts := by
  unfold Path.join Path.below
  rw [if_neg (Bool.eq_false_iff.1 h.relative)]

namespace Project

open Artifact (ClearOf)

variable {root : Path} {r : Place} {w : World} {done todo : List Artifact}

/-- **One file is written.** With the directories on its way, which are made for it. -/
theorem writeArtifact_ok {a : Artifact} (hroot : w.disk.Stands root r) (htakes : root.Takes a.path)
    (hne : a.path.parts ≠ []) (hholds : w.disk.Holds r done (a :: todo)) (hdone : ∀ b ∈ done, ClearOf b a)
    (htodo : ∀ b ∈ todo, ClearOf a b) (m : Manifest) :
    ∃ w', writeArtifact root m a w = (.ok (m.addArtifact a.path.toString), w') ∧ w'.disk.Stands root r ∧
      w'.disk.Holds r (done ++ [a]) todo := by
  obtain ⟨up, file, hparts⟩ : ∃ up file, a.path.parts = up ++ [file] :=
    ⟨_, _, (List.dropLast_append_getLast hne).symm⟩
  have hup : up <+: a.path.parts := hparts ▸ List.prefix_append up [file]
  have hself : ¬ a.path.parts <+: up := fun h => by
    have hlength := h.length_le
    rw [hparts, List.length_append, List.length_singleton] at hlength
    omega
  -- the directories
  obtain ⟨w₁, hmade, hwidened, hdirs⟩ := Work.makeDirs_ok hroot (htakes.fits.shorten hup)
    (hholds.way fun b hb h => (hdone b hb).1 (h.trans hup))
  have hroot₁ := hroot.widened hwidened
  have hholds₁ := hholds.widened hwidened fun b hb h => by
    rcases List.mem_cons.1 hb with rfl | hb
    · exact hself h
    · exact (htodo b hb).2 (h.trans hup)
  -- the file
  have hvacant := hholds₁.vacant a List.mem_cons_self
  have hsaved := Work.save_ok hroot₁ htakes.fits hne (fun front hfront hfile => hdirs front <| by
    rw [hparts] at hfront hfile
    exact (List.prefix_concat_iff.1 hfront).resolve_left hfile) hvacant a.content.toUTF8
  refine ⟨{ w₁ with
    disk := w₁.disk.put (r ++ a.path.parts) a.entry
    log := w₁.log ++ [LogEntry.debug ("[Assembler] Wrote " ++ a.path.toString)] }, ?_, ?_, ?_⟩
  · have htarget : (root.below a.path.parts).parts.dropLast = root.parts ++ up := by
      show (root.parts ++ a.path.parts).dropLast = _
      rw [hparts, ← List.append_assoc, List.dropLast_concat]
    unfold writeArtifact
    rw [htakes.join_eq, htarget]
    exact (Work.bind_ok hmade _).trans ((Work.bind_ok hsaved _).trans rfl)
  · refine hroot₁.mono (Disk.here_put _ _ _) fun q hq => ?_
    have hother : r ++ a.path.parts ≠ q := fun heq => by
      rw [heq, hq] at hvacant
      cases hvacant
    rw [← hq]
    exact Disk.get?_put_of_ne w₁.disk a.entry hother
  · exact hholds₁.put hne hdone htodo

/-- **All files are written**, one after the other. -/
theorem writeArtifacts_ok (hroot : w.disk.Stands root r) (htakes : ∀ a ∈ todo, root.Takes a.path)
    (hne : ∀ a ∈ todo, a.path.parts ≠ []) (hholds : w.disk.Holds r done todo) (hclear : (done ++ todo).Pairwise ClearOf)
    (m : Manifest) :
    ∃ w', todo.foldlM (writeArtifact root) m w =
        (.ok { m with artifacts := m.artifacts ++ todo.map fun a => a.path.toString }, w') ∧
      w'.disk.Holds r (done ++ todo) [] := by
  induction todo generalizing done m w with
  | nil =>
    rw [List.append_nil, List.map_nil, List.append_nil]
    exact ⟨w, rfl, hholds⟩
  | cons a rest ih =>
    obtain ⟨-, hrest, hcross⟩ := List.pairwise_append.1 hclear
    obtain ⟨w₁, hwrite, hroot₁, hholds₁⟩ := writeArtifact_ok hroot (htakes a List.mem_cons_self)
      (hne a List.mem_cons_self) hholds (fun b hb => hcross b hb a List.mem_cons_self) (List.pairwise_cons.1 hrest).1 m
    have happend : done ++ a :: rest = done ++ [a] ++ rest := by
      rw [List.append_assoc, List.singleton_append]
    rw [happend] at hclear ⊢
    obtain ⟨w', hloop, hholds'⟩ := ih hroot₁ (fun b hb => htakes b (List.mem_cons_of_mem a hb))
      (fun b hb => hne b (List.mem_cons_of_mem a hb)) hholds₁ hclear (m.addArtifact a.path.toString)
    refine ⟨w', ?_, hholds'⟩
    rw [List.foldlM_cons, Work.bind_ok hwrite, hloop]
    simp only [Manifest.addArtifact, List.map_cons, List.append_assoc, List.singleton_append]

/-- the directories of the packages are made -/
theorem makePackages_ok {dirs : List Path} (hroot : w.disk.Stands root r) (htakes : ∀ dir ∈ dirs, root.Takes dir)
    (hfree : ∀ dir ∈ dirs, ∀ a ∈ todo, ¬ a.path.parts <+: dir.parts) (hholds : w.disk.Holds r [] todo) :
    ∃ w', dirs.forM (fun dir => Work.makeDirs (root.join dir)) w = (.ok (), w') ∧ w'.disk.Stands root r ∧
      w'.disk.Holds r [] todo := by
  induction dirs generalizing w with
  | nil => exact ⟨w, rfl, hroot, hholds⟩
  | cons dir rest ih =>
    have htake := htakes dir List.mem_cons_self
    obtain ⟨w₁, hmade, hwidened, -⟩ := Work.makeDirs_ok hroot htake.fits (hholds.way nofun)
    rw [← htake.join_eq] at hmade
    obtain ⟨w', hloop, hend⟩ := ih (hroot.widened hwidened)
      (fun d hd => htakes d (List.mem_cons_of_mem dir hd)) (fun d hd => hfree d (List.mem_cons_of_mem dir hd))
      (hholds.widened hwidened (hfree dir List.mem_cons_self))
    exact ⟨w', (Work.bind_ok hmade fun _ => rest.forM _).trans hloop, hend⟩

/-- **A project without a scaffold** is put into an empty directory: afterwards its files are there, and no others. -/
theorem assemble_ok {as : List Artifact} (hroot : w.disk.Stands root r)
    (hempty : ∀ q, q ≠ [] → w.disk.get? (r ++ q) = none)
    (htakes : ∀ p ∈ Artifact.packageDirs ++ as.map Artifact.path, root.Takes p)
    (hne : ∀ a ∈ as, a.path.parts ≠ []) (hfree : ∀ dir ∈ Artifact.packageDirs, ∀ a ∈ as, ¬ a.path.parts <+: dir.parts)
    (hclear : as.Pairwise ClearOf) :
    ∃ m w', assemble none as root w = (.ok m, w') ∧ (m.artifacts = as.map fun a => a.path.toString) ∧
      w'.disk.Holds r as [] := by
  have hdirs : ∀ dir ∈ Artifact.packageDirs, root.Takes dir := fun dir hdir => htakes dir (List.mem_append_left _ hdir)
  have hfiles : ∀ a ∈ as, root.Takes a.path := fun a ha =>
    htakes a.path (List.mem_append_right _ (List.mem_map_of_mem ha))
  obtain ⟨w₁, hpackages, hroot₁, hholds₁⟩ :=
    makePackages_ok hroot hdirs hfree (Disk.Holds.of_empty hroot.dir hempty hne)
  obtain ⟨m, w₂, hscaffold, hnone, hdisk⟩ : ∃ m w₂, copyScaffold none root {} w₁ = (.ok m, w₂) ∧ m.artifacts = [] ∧
      w₂.disk = w₁.disk := ⟨_, _, rfl, rfl, rfl⟩
  rw [← hdisk] at hroot₁ hholds₁
  obtain ⟨w', hwritten, hholds'⟩ := writeArtifacts_ok hroot₁ hfiles hne hholds₁ hclear m
  rw [hnone, List.nil_append] at hwritten
  refine ⟨{ m with artifacts := as.map fun a => a.path.toString }, w', ?_, rfl, hholds'⟩
  unfold assemble
  rw [Work.bind_ok hpackages, Work.bind_ok hscaffold, hwritten]

end Project

/-! ## The files of a diagram -/

/-- **One file for each.** A diagram has four files for every distinct identifier, and one for every key in its plan. Their
paths are distinct exactly when no two classes have the same seat and no class has that of a key. Then each of them is on
disk, with its own content, when they are put into an empty directory that takes their paths. -/
theorem one_file_each (policy : Policy) (d : Diagram) :
    (∃ as, render .lastWins d = .ok as) ∧ ∀ as, render policy d = .ok as →
      (∃ p, Plan.build policy d = .ok p ∧
        as.length = 4 * (d.nodes.map fun n => Naming.identifier n.label).toFinset.card + p.identityCount) ∧
      ((as.map Artifact.path).Nodup ↔ d.FilesApart) ∧
      (d.FilesApart → ∀ (root : Path) (r : Place) (w : World), w.disk.Stands root r →
        (∀ q, q ≠ [] → w.disk.get? (r ++ q) = none) →
        (∀ p ∈ Artifact.packageDirs ++ as.map Artifact.path, root.Takes p) →
        ∃ m w', Project.assemble none as root w = (.ok m, w') ∧ (m.artifacts = as.map fun a => a.path.toString) ∧
          {q | ∃ content mode, w'.disk.get? (r ++ q) = some (.file content mode)}.ncard = as.length ∧
          ∀ a ∈ as, w'.disk.get? (r ++ a.path.parts) = some a.entry) := by
  refine ⟨?_, fun as has => ?_⟩
  · obtain ⟨p, hp⟩ := Plan.exists_build d
    exact ⟨_, render_of_build hp⟩
  obtain ⟨p, hp, rfl⟩ := artifacts_of_render has
  refine ⟨⟨p, hp, ?_⟩, Plan.nodup_paths_iff hp, fun hfiles root r w hroot hempty htakes => ?_⟩
  · rw [Artifact.length_ofPlan, Plan.length_entities hp]
  have hnodup := (Plan.nodup_paths_iff hp).2 hfiles
  have hrelative : ∀ a ∈ Artifact.ofPlan p, a.path.isAbsolute = false := fun a ha =>
    (htakes a.path (List.mem_append_right _ (List.mem_map_of_mem ha))).relative
  have hclear := Artifact.pairwise_clear hp hrelative hnodup
  obtain ⟨m, w', hassemble, hlisted, hholds⟩ := Project.assemble_ok hroot hempty htakes
    (fun a ha => Artifact.parts_ne_nil hp ha) (fun dir hdir a ha => Artifact.not_above_package hp ha hdir) hclear
  refine ⟨m, w', hassemble, hlisted, hholds.ncard_files ?_, hholds.there⟩
  refine List.pairwise_map.2 (hclear.imp fun {a b} h heq => h.1 ?_)
  rw [heq]

/-- a car with its wheels -/
def garage : Diagram where
  nodes := [⟨"c", "Car", [], false⟩, ⟨"w", "Wheel", [], false⟩]
  edges := [⟨"", "c", "w", none, none, none, .composition⟩]
  metadata := .null

/-- a disk with an empty directory -/
def emptyDirectory : Disk where
  items := [(["project"], ⟨.dir, 0⟩)]

theorem garage_one_file_each : ∃ as m w', render .lastWins garage = .ok as ∧ as.length = 4 * 2 + 1 ∧
    (as.map Artifact.path).Nodup ∧ Project.assemble none as ⟨"/", ["project"]⟩ { disk := emptyDirectory } = (.ok m, w') ∧
    {q | ∃ content mode, w'.disk.get? ("project" :: q) = some (.file content mode)}.ncard = 9 := by
  have happly := (one_file_each .lastWins garage).2 _ (render_of_build rfl)
  have hapart : garage.FilesApart := by decide
  have hroot : emptyDirectory.Stands ⟨"/", ["project"]⟩ ["project"] := ⟨rfl, rfl⟩
  obtain ⟨m, w', hassemble, -, hfiles, -⟩ := happly.2.2 hapart ⟨"/", ["project"]⟩ ["project"] { disk := emptyDirectory }
    hroot (fun q hq => by simp [emptyDirectory, Disk.get?, Table.get?, hq]) (by decide)
  exact ⟨_, m, w', render_of_build rfl, by decide, happly.2.1.2 hapart, hassemble, hfiles⟩

/-- a class that is called like the key of the wheels -/
def keyring : Diagram where
  nodes := [⟨"c", "Car", [], false⟩, ⟨"w", "Wheel", [], false⟩, ⟨"k", "WheelId", [], false⟩]
  edges := [⟨"", "c", "w", none, none, none, .composition⟩]
  metadata := .null

/-- **One path for two files.** The key of the wheels and the class that is called so have the same path, and the class, which
is written later, is all that stays. -/
theorem keyring_not_distinct : ∃ as, render .lastWins keyring = .ok as ∧ as.length = 4 * 3 + 1 ∧
    ¬ (as.map Artifact.path).Nodup ∧
    (as.filter fun a => a.path.parts.drop 6 = ["model", "WheelId.java"]).map Artifact.className = ["Wheel", "WheelId"] :=
  ⟨_, render_of_build rfl, by decide, by decide, by decide⟩

end Classwright
