/-
Which generated files stay inside the project.

A label of which a letter or digit is left becomes a plain name. Any other label is taken as it is, so it may begin with a
slash, or climb out of the directory that its files are joined to.

- `Artifact.InPackage`: a relative path that leads into one of the four package directories, wherever the project is;
- `Path.StaysInside`: a label that does not begin with a slash and whose folders never climb above where they start;
- `inPackage_ofEntity_iff`: the files of a class are in the packages exactly when its name stays inside;
- `keeps_writeArtifact`: writing a file that is in the packages keeps every file outside the project;
- `artifacts_contained`: all files of a diagram are in the packages exactly when its labels stay inside, and then no file
  outside the project changes when they are written.
-/
import Classwright.Project
import Classwright.Proofs.Entities
import Classwright.Proofs.Frames
import Classwright.Proofs.Labels

namespace Classwright

/-! ## Labels -/

/-- a text that, joined to a directory, names something within it -/
def Path.StaysInside (s : String) : Prop := s.toList.head? ≠ some '/' ∧ staysWithin 0 (folders s) = true

/-- the labels that are taken as they are stay inside -/
def Diagram.LabelsStayInside (d : Diagram) : Prop :=
  ∀ n ∈ d.nodes, Naming.className n.label = "" → Path.StaysInside n.label

theorem Path.staysInside_of_not_mem {s : String} (h : '/' ∉ s.toList) : StaysInside s := by
  refine ⟨fun hhead => h (List.mem_of_mem_head? hhead), ?_⟩
  rw [folders_of_not_mem h]
  rfl

theorem Path.staysInside_className (label : String) : StaysInside (Naming.className label) :=
  staysInside_of_not_mem (Naming.slash_not_mem_className label)

/-! ## Packages -/

namespace Artifact

/-- a relative path into one of the package directories of whatever directory it is joined to -/
def InPackage (p : Path) : Prop :=
  p.isAbsolute = false ∧ ∃ dir ∈ packageDirs, ∃ rest, rest ≠ [] ∧
    ∀ start, Path.resolve start p.parts = start ++ (dir.parts ++ rest)

def packageNames : List String := ["model", "repository", "service", "controller"]

/-- what the names of generated files end in -/
def endings : List String := [".java", "Repository.java", "Service.java", "Controller.java", "Id.java"]

theorem exists_name_of_mem_packageDirs {dir : Path} (h : dir ∈ packageDirs) :
    ∃ name ∈ packageNames, dir = ⟨"", sourceRoot.parts ++ [name]⟩ := by
  revert dir
  decide

theorem mem_packageDirs {name : String} (h : name ∈ packageNames) : ⟨"", sourceRoot.parts ++ [name]⟩ ∈ packageDirs := by
  revert name
  decide

theorem up_not_mem_package {name : String} (h : name ∈ packageNames) : ".." ∉ sourceRoot.parts ++ [name] := by
  revert name
  decide

theorem ending_facts {ending : String} (h : ending ∈ endings) : '/' ∉ ending.toList ∧ 2 ≤ ending.toList.length ∧
    ending.toList.head? ≠ some '/' ∧ '.' ∈ ending.toList ∧ 'j' ∈ ending.toList := by
  revert ending
  decide

/-- the name of a generated file is neither a step up nor the name of a package -/
theorem file_ne (file : String) {ending : String} (h : ending ∈ endings) :
    file ++ ending ≠ ".." ∧ file ++ ending ∉ packageNames := by
  obtain ⟨-, -, -, hdot, hj⟩ := ending_facts h
  have hmem : ∀ {c}, c ∈ ending.toList → c ∈ (file ++ ending).toList := fun hc => by
    rw [String.toList_append]
    exact List.mem_append_right _ hc
  constructor
  · intro heq
    have := hmem hj
    rw [heq] at this
    revert this
    decide
  · intro hpackage
    have : ∀ name ∈ packageNames, '.' ∉ name.toList := by decide
    exact this _ hpackage (hmem hdot)

section

variable {package s ending : String}

/-- a file joined to a directory, by a text that does not begin with a slash -/
theorem child_eq (parts : List String) (hs : s.toList.head? ≠ some '/') (hending : ending ∈ endings) :
    Path.child ⟨"", parts⟩ (s ++ ending) = ⟨"", parts ++ (Path.folders s ++ [Path.base s ++ ending])⟩ := by
  obtain ⟨hslash, hlength, hhead, -, -⟩ := ending_facts hending
  unfold Path.child Path.join
  rw [if_neg (mt (Path.isAbsolute_append s hhead).1 hs)]
  exact congrArg _ (congrArg _ (Path.names_append s hslash hlength))

/-- and by a text that does, the file takes the place of the directory -/
theorem isAbsolute_child (dir : Path) (hs : s.toList.head? = some '/') (hending : ending ∈ endings) :
    (dir.child (s ++ ending)).isAbsolute = true := by
  obtain ⟨-, -, hhead, -, -⟩ := ending_facts hending
  have habsolute := (Path.isAbsolute_append s hhead).2 hs
  unfold Path.child Path.join
  rw [if_pos habsolute]
  exact habsolute

theorem resolve_file (hpackage : package ∈ packageNames) (hending : ending ∈ endings) (start : List String) :
    Path.resolve start (sourceRoot.parts ++ [package] ++ (Path.folders s ++ [Path.base s ++ ending])) =
      Path.resolve (start ++ (sourceRoot.parts ++ [package])) (Path.folders s) ++ [Path.base s ++ ending] := by
  rw [Path.resolve_append, Path.resolve_append, Path.resolve_of_not_mem (up_not_mem_package hpackage)]
  show Path.walk _ _ = _
  rw [Path.walk, if_neg (file_ne _ hending).1]

theorem inPackage_of_staysWithin (hpackage : package ∈ packageNames) (hending : ending ∈ endings)
    (h : Path.staysWithin 0 (Path.folders s) = true) :
    InPackage ⟨"", sourceRoot.parts ++ [package] ++ (Path.folders s ++ [Path.base s ++ ending])⟩ := by
  have hinner : Path.staysWithin ([] : List String).length (Path.folders s) = true := h
  obtain ⟨rest, hrest⟩ := Path.resolve_of_staysWithin hinner
  refine ⟨rfl, _, mem_packageDirs hpackage, rest ++ [Path.base s ++ ending], by simp, ?_⟩
  intro start
  have hstart := hrest (start ++ (sourceRoot.parts ++ [package]))
  rw [List.append_nil] at hstart
  rw [resolve_file hpackage hending, hstart]
  simp only [List.append_assoc]

/-- folders that climb lead out of the package, and into none again -/
theorem not_prefix_of_climbing {package' : String} (hpackage' : package' ∈ packageNames)
    (hfolders : ∀ name ∈ Path.folders s, name ∉ packageNames) (h : Path.staysWithin 0 (Path.folders s) = false) :
    ¬ sourceRoot.parts ++ [package'] <+: Path.resolve (sourceRoot.parts ++ [package]) (Path.folders s) := by
  have hlast : (sourceRoot.parts ++ [package']).getLast? = some package' := List.getLast?_concat
  rw [← List.append_nil (sourceRoot.parts ++ [package])]
  refine Path.not_prefix_of_climbs ?_ (by simp) (by simp) h
  intro name hname heq
  rw [hlast] at heq
  cases heq
  exact hfolders _ hname hpackage'

theorem staysWithin_of_inPackage (hpackage : package ∈ packageNames) (hending : ending ∈ endings)
    (hfolders : ∀ name ∈ Path.folders s, name ∉ packageNames)
    (h : InPackage ⟨"", sourceRoot.parts ++ [package] ++ (Path.folders s ++ [Path.base s ++ ending])⟩) :
    Path.staysWithin 0 (Path.folders s) = true := by
  obtain ⟨-, dir, hdir, rest, -, hrest⟩ := h
  obtain ⟨package', hpackage', rfl⟩ := exists_name_of_mem_packageDirs hdir
  by_contra hclimbs
  have hend := hrest []
  rw [resolve_file hpackage hending, List.nil_append, List.nil_append] at hend
  have hprefix : sourceRoot.parts ++ [package'] <+:
      Path.resolve (sourceRoot.parts ++ [package]) (Path.folders s) ++ [Path.base s ++ ending] := ⟨rest, hend.symm⟩
  rcases List.prefix_concat_iff.1 hprefix with heq | hprefix
  · -- the file itself would be the package
    have hname := congrArg List.getLast? heq
    rw [List.getLast?_concat, List.getLast?_concat] at hname
    cases hname
    exact (file_ne _ hending).2 hpackage'
  · exact not_prefix_of_climbing hpackage' hfolders (Bool.eq_false_iff.2 hclimbs) hprefix

/-- **A file of a package directory.** It is in the packages exactly when the text before its ending stays inside. -/
theorem inPackage_child_iff {dir : Path} (hdir : dir ∈ packageDirs) (hending : ending ∈ endings)
    (hfolders : ∀ name ∈ Path.folders s, name ∉ packageNames) :
    InPackage (dir.child (s ++ ending)) ↔ Path.StaysInside s := by
  obtain ⟨package, hpackage, rfl⟩ := exists_name_of_mem_packageDirs hdir
  by_cases hs : s.toList.head? = some '/'
  · constructor
    · intro h
      have habsolute := isAbsolute_child ⟨"", sourceRoot.parts ++ [package]⟩ hs hending
      rw [h.1] at habsolute
      cases habsolute
    · intro h
      exact absurd hs h.1
  · rw [child_eq _ hs hending]
    constructor
    · intro h
      exact ⟨hs, staysWithin_of_inPackage hpackage hending hfolders h⟩
    · intro h
      exact inPackage_of_staysWithin hpackage hending h.2

end

/-- **The files of a class.** They are in the packages exactly when the name of the class stays inside. -/
theorem inPackage_ofEntity_iff {e : Entity} (hid : e.IdNamed)
    (hfolders : ∀ name ∈ Path.folders e.name, name ∉ packageNames) :
    (∀ a ∈ ofEntity e, InPackage a.path) ↔ Path.StaysInside e.name := by
  have hiff : ∀ {dir}, dir ∈ packageDirs → ∀ {ending}, ending ∈ endings →
      (InPackage (dir.child (e.name ++ ending)) ↔ Path.StaysInside e.name) :=
    fun hdir _ hending => inPackage_child_iff hdir hending hfolders
  have hmodel : InPackage (modelDir.child (e.name ++ ".java")) ↔ Path.StaysInside e.name :=
    hiff (by decide) (by decide)
  constructor
  · intro h
    have hmem : (⟨modelDir.child (e.name ++ ".java"), e.name, Java.renderEntity e⟩ : Artifact) ∈ ofEntity e :=
      List.mem_append_left _ List.mem_cons_self
    have hfile := h _ hmem
    exact hmodel.1 hfile
  · intro h a ha
    rcases List.mem_append.1 ha with ha | ha
    · simp only [List.mem_cons, List.not_mem_nil, or_false] at ha
      rcases ha with rfl | rfl | rfl | rfl
      · exact hmodel.2 h
      · exact (hiff (by decide) (by decide)).2 h
      · exact (hiff (by decide) (by decide)).2 h
      · exact (hiff (by decide) (by decide)).2 h
    · cases hi : e.identity with
      | none => rw [hi] at ha; cases ha
      | some i =>
        rw [hi, List.mem_singleton] at ha
        subst ha
        have hkey : "Id" ++ ".java" ∈ endings := by decide
        show InPackage (modelDir.child (i.idClassName ++ ".java"))
        rw [hid i hi, String.append_assoc]
        exact (hiff (by decide) hkey).2 h

end Artifact

/-- a class has no folder with a letter or digit in its name: either it has no folder, or none of these -/
theorem not_alphanumeric_of_mem_folders {label name : String} (hname : name ∈ Path.folders (Naming.identifier label)) {c : Char}
    (hc : c ∈ name.toList) : Naming.isAsciiAlphanumeric c = false := by
  by_cases hlabel : Naming.className label = ""
  · rw [Naming.identifier_of_eq hlabel] at hname
    exact Naming.not_alphanumeric_of_className_empty hlabel (Path.mem_of_mem_folders hname hc)
  · rw [Naming.identifier_of_ne hlabel, Path.folders_of_not_mem (Naming.slash_not_mem_className label)] at hname
    cases hname

theorem folders_not_package {label : String} :
    ∀ name ∈ Path.folders (Naming.identifier label), name ∉ Artifact.packageNames := by
  intro name hname hpackage
  have hletter : ∀ name ∈ Artifact.packageNames, name.toList.any Naming.isAsciiAlphanumeric = true := by decide
  obtain ⟨c, hc, halpha⟩ := List.any_eq_true.1 (hletter name hpackage)
  rw [not_alphanumeric_of_mem_folders hname hc] at halpha
  cases halpha

theorem staysInside_identifier_iff (label : String) :
    Path.StaysInside (Naming.identifier label) ↔ (Naming.className label = "" → Path.StaysInside label) := by
  by_cases hlabel : Naming.className label = ""
  · rw [Naming.identifier_of_eq hlabel]
    exact ⟨fun h _ => h, fun h => h hlabel⟩
  · rw [Naming.identifier_of_ne hlabel]
    exact ⟨fun _ h => absurd h hlabel, fun _ => Path.staysInside_className label⟩

theorem inPackage_render_iff {policy : Policy} {d : Diagram} {as : List Artifact} (h : render policy d = .ok as) :
    (∀ a ∈ as, Artifact.InPackage a.path) ↔ d.LabelsStayInside := by
  obtain ⟨p, hp, rfl⟩ := artifacts_of_render h
  have hnames : ∀ name, (∃ e ∈ p.entities, e.name = name) ↔ ∃ n ∈ d.nodes, Naming.identifier n.label = name := by
    intro name
    rw [← NameTable.mem_names_ofDiagram, ← Plan.names_of_build hp, List.mem_map]
  have hentity : ∀ e ∈ p.entities, (∀ a ∈ Artifact.ofEntity e, Artifact.InPackage a.path) ↔ Path.StaysInside e.name := by
    intro e he
    obtain ⟨n, -, hn⟩ := (hnames e.name).1 ⟨e, he, rfl⟩
    exact Artifact.inPackage_ofEntity_iff (idNamed_of_build hp e he) (hn ▸ folders_not_package)
  constructor
  · intro hall n hn
    obtain ⟨e, he, hname⟩ := (hnames _).2 ⟨n, hn, rfl⟩
    rw [← staysInside_identifier_iff, ← hname]
    exact (hentity e he).1 fun a ha => hall a (List.mem_flatMap.2 ⟨e, he, ha⟩)
  · intro hlabels a ha
    obtain ⟨e, he, hae⟩ := List.mem_flatMap.1 ha
    obtain ⟨n, hn, hname⟩ := (hnames e.name).1 ⟨e, he, rfl⟩
    refine (hentity e he).2 ?_ a hae
    rw [← hname, staysInside_identifier_iff]
    exact hlabels n hn

/-! ## Writing -/

/-- **One file.** Writing a file that is in the packages keeps every file outside the project. -/
theorem keeps_writeArtifact {a : Artifact} (h : Artifact.InPackage a.path) (root : Path) (home : Place) (m : Manifest) :
    Work.Keeps home (fun q => ¬ Disk.beneath (Path.resolve (if root.isAbsolute then [] else home) root.parts) q = true)
      (Project.writeArtifact root m a) := by
  obtain ⟨hrelative, dir, -, rest, -, hrest⟩ := h
  have htarget : root.join a.path = ⟨root.root, root.parts ++ a.path.parts⟩ := by
    unfold Path.join
    rw [hrelative]
    rfl
  unfold Project.writeArtifact
  refine (Work.keeps_makeDirs _).bind fun _ => Work.Keeps.bind (Work.keeps_save _ _ ?_) fun _ =>
    (Work.keeps_report _).bind fun _ => (Work.still_pure _).keeps
  rw [htarget, not_not]
  show Disk.beneath _ (Path.resolve _ (root.parts ++ a.path.parts)) = true
  rw [Path.resolve_append, hrest]
  exact List.isPrefixOf_iff_prefix.2 (List.prefix_append _ _)

/-- **When the generated files stay inside the project.** All of them are in the package directories exactly when no label
that is taken as it is leads out, and then writing them at a root leaves every file outside the root as it was, whatever
comes of it. -/
theorem artifacts_contained (policy : Policy) (d : Diagram) (as : List Artifact) (h : render policy d = .ok as) :
    ((∀ a ∈ as, Artifact.InPackage a.path) ↔ d.LabelsStayInside) ∧
      (d.LabelsStayInside → ∀ (root : Path) (m : Manifest) (w : World) (q : Place),
        ¬ Disk.beneath (Path.resolve (w.disk.origin root) root.parts) q = true → ∀ content mode,
          ((as.foldlM (Project.writeArtifact root) m) w).2.disk.get? q = some (.file content mode) ↔
            w.disk.get? q = some (.file content mode)) := by
  refine ⟨inPackage_render_iff h, fun hlabels root m w q hq => ?_⟩
  have hpackages := (inPackage_render_iff h).2 hlabels
  have hkeeps := Work.Keeps.foldlM (fun a ha m => keeps_writeArtifact (hpackages a ha) root w.disk.here m) m
  exact (hkeeps w rfl).files q hq

/-- a plain label, and one that goes into a folder and out of it again -/
def winding : Diagram where
  nodes := [⟨"a", "Order item", [], false⟩, ⟨"b", "-/../~", [], false⟩]
  edges := [⟨"", "a", "b", none, none, none, .composition⟩]
  metadata := .null

theorem winding_contained : ∃ as, render .lastWins winding = .ok as ∧
    as.map (fun a => a.path.parts.drop 6) = [["model", "Orderitem.java"], ["repository", "OrderitemRepository.java"],
      ["service", "OrderitemService.java"], ["controller", "OrderitemController.java"], ["model", "-", "..", "~.java"],
      ["repository", "-", "..", "~Repository.java"], ["service", "-", "..", "~Service.java"],
      ["controller", "-", "..", "~Controller.java"], ["model", "-", "..", "~Id.java"]] ∧
    ∀ a ∈ as, Artifact.InPackage a.path := by
  have hlabels : winding.LabelsStayInside := by
    unfold Diagram.LabelsStayInside Path.StaysInside
    decide
  exact ⟨_, render_of_build rfl, by decide, (artifacts_contained .lastWins winding _ (render_of_build rfl)).1.2 hlabels⟩

/-- a label that begins at the top -/
def escaping : Diagram where
  nodes := [⟨"a", "/", [], false⟩]
  edges := []
  metadata := .null

/-- **A file outside the project.** The files of the label `/` are written at the top of the disk, whatever the root. -/
theorem escaping_not_contained : ∃ as, render .lastWins escaping = .ok as ∧
    as.map (fun a => a.path.toString) = ["/.java", "/Repository.java", "/Service.java", "/Controller.java"] ∧
    ∀ a ∈ as, ¬ Artifact.InPackage a.path ∧ ∀ root : Path, root.join a.path = a.path := by
  refine ⟨_, render_of_build rfl, by decide, fun a ha => ?_⟩
  have habsolute : a.path.isAbsolute = true := by
    revert a
    decide
  refine ⟨fun h => ?_, fun root => if_pos habsolute⟩
  rw [h.1] at habsolute
  cases habsolute

end Classwright
