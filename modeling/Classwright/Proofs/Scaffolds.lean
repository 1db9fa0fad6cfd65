/-
A scaffold that is copied beneath an empty root.

The entries that a template has are copied as they were before anything was done, and the entries that it lacks are
reported, one warning for each.

- `Scaffold.hasFile`, `hasDirectory`: whether a template has an entry; `Laid.isFile_eq`, `isDir_eq`: a look tells it;
- `Scaffold.Copies`: a step that copies an entry or reports it; `copies_foldlM`: several of them;
- `Laid.copyItem`, `Laid.copyTree`: an entry is copied; `copies_file`, `copies_directory`: or reported;
- `Scaffold.found`, `warnings`: what a template has and what it lacks;
- `Project.copyScaffold_ok`: what is on disk, and what is reported, when the whole scaffold was copied;
  `sameClock_copyScaffold`: that takes no time.
-/
import Classwright.Project
import Classwright.Proofs.Laying

namespace Classwright

namespace Scaffold

/-! ## The entries that a template has -/

/-- whether there is a file for an entry beneath a place -/
def hasFile (d : Disk) (t : Place) (p : Path) : Bool := (d.fileAt? (t ++ p.parts)).isSome

/-- whether there is a directory for an entry beneath a place -/
def hasDirectory (d : Disk) (t : Place) (p : Path) : Bool := (d.get? (t ++ p.parts)).any Entry.isDir

theorem hasDirectory_iff {d : Disk} {t : Place} {p : Path} : hasDirectory d t p = true ↔ d.get? (t ++ p.parts) = some .dir := by
  unfold hasDirectory
  cases d.get? (t ++ p.parts) with
  | none => simp
  | some e => cases e <;> simp [Entry.isDir]

theorem plain_paths : ∀ p ∈ paths, Work.hasNull ⟨"", p.parts⟩ = false ∧ ∀ name ∈ p.parts, name.utf8ByteSize ≤ Disk.nameLimit := by
  decide

namespace Laid

variable {before start : Disk} {root template p : Path} {r t : Place} {copied : List Path} {w : World} {b : Bool}

/-- a look for a file entry tells whether the template had it before -/
theorem isFile_eq (h : Laid before start r t copied w.disk) (hground : Ground before start root template r t) (hp : p ∈ paths)
    (hlook : (Work.isFile (template.join p) w).1 = .ok b) : b = hasFile before t p := by
  rw [Work.isFile_eq, join_eq hp] at hlook
  have hthere := Disk.look_below h.tree (h.holding hground hground.template) (plain_paths p hp).1 (up_not_mem p hp)
    (plain_paths p hp).2 hlook
  have hfile : ∀ q, ((w.disk.get? q).map Entry.isFile).getD false = (w.disk.fileAt? q).isSome := by
    intro q
    unfold Disk.fileAt?
    cases w.disk.get? q with
    | none => rfl
    | some e => cases e <;> rfl
  rw [hthere, hfile, hasFile, Disk.fileAt?_of_stampAt? (h.file_eq hground hp)]

/-- a look for a directory entry tells whether the template had it before -/
theorem isDir_eq (h : Laid before start r t copied w.disk) (hground : Ground before start root template r t)
    (hp : p ∈ directories) (hlook : (Work.isDir (template.join p) w).1 = .ok b) : b = hasDirectory before t p := by
  have hpaths : p ∈ paths := List.mem_append_right _ hp
  rw [Work.isDir_eq, join_eq hpaths] at hlook
  have hthere := Disk.look_below h.tree (h.holding hground hground.template) (plain_paths p hpaths).1 (up_not_mem p hpaths)
    (plain_paths p hpaths).2 hlook
  have hdir : ∀ q, ((w.disk.get? q).map Entry.isDir).getD false = true ↔ w.disk.get? q = some .dir := by
    intro q
    cases w.disk.get? q with
    | none => simp
    | some e => cases e <;> simp [Entry.isDir]
  rw [hthere, Bool.eq_iff_iff, hdir, hasDirectory_iff]
  refine ⟨fun hthere => ?_, h.kept _ _⟩
  have hsame := ((h.directory_same hground hp hthere).2 []).1
  rwa [List.append_nil, hthere, eq_comm] at hsame

end Laid

/-- the texts of the files that a template has in some of the entries -/
def Listed (before : Disk) (t : Place) (copied : List Path) (s : String) : Prop :=
  ∃ p ∈ copied, ∃ names c, p.parts <+: names ∧ before.fileAt? (t ++ names) = some c ∧ s = Text.joinWith "/" names

theorem listed_append {before : Disk} {t : Place} {ps qs : List Path} {s : String} :
    Listed before t (ps ++ qs) s ↔ Listed before t ps s ∨ Listed before t qs s := by
  simp only [Listed, List.mem_append, or_and_right, exists_or]

/-- a step that copies an entry if the template has it, and reports it if not -/
def Copies (before start : Disk) (r t : Place) (has : Path → Bool) (warning : Path → String) (p : Path)
    (step : Manifest → Work Manifest) : Prop :=
  ∀ copied m m' w w', Laid before start r t copied w.disk → p ∉ copied → step m w = (.ok m', w') →
    if has p then ∃ xs, m' = m.addScaffold xs ∧ (∀ s, s ∈ xs ↔ Listed before t [p] s) ∧
      Laid before start r t (copied ++ [p]) w'.disk
    else m' = m.warn (warning p) ∧ w'.disk = w.disk

theorem copies_foldlM {ι : Type} {before start : Disk} {r t : Place} {has : Path → Bool} {warning : Path → String}
    {f : ι → Path} {step : Manifest → ι → Work Manifest} {items : List ι}
    (hsteps : ∀ i ∈ items, Copies before start r t has warning (f i) fun m => step m i) {copied : List Path}
    (hnodup : (copied ++ items.map f).Nodup) {m m' : Manifest} {w w' : World} (h : Laid before start r t copied w.disk)
    (hrun : items.foldlM step m w = (.ok m', w')) :
    Laid before start r t (copied ++ (items.map f).filter has) w'.disk ∧
      ∃ xs, m' = ⟨m.scaffold ++ xs, m.artifacts, m.warnings ++ ((items.map f).filter fun p => !has p).map warning⟩ ∧
        ∀ s, s ∈ xs ↔ Listed before t ((items.map f).filter has) s := by
  induction items generalizing copied m w with
  | nil =>
    cases hrun
    refine ⟨by simpa using h, [], by simp, fun s => by simp [Listed]⟩
  | cons i rest ih =>
    rw [List.foldlM_cons] at hrun
    obtain ⟨m₁, w₁, hone, hrest⟩ := Work.bind_eq_ok hrun
    have hnew : f i ∉ copied := fun hmem => (List.nodup_append.1 hnodup).2.2 _ hmem _ List.mem_cons_self rfl
    have hstep := hsteps i List.mem_cons_self copied m m₁ w w₁ h hnew hone
    have hsteps' := fun j hj => hsteps j (List.mem_cons_of_mem i hj)
    rw [List.map_cons] at hnodup ⊢
    cases hhas : has (f i) with
    | true =>
      rw [hhas, if_pos rfl] at hstep
      obtain ⟨xs, rfl, hxs, hlaid⟩ := hstep
      have happend : copied ++ f i :: rest.map f = copied ++ [f i] ++ rest.map f := by
        rw [List.append_assoc, List.singleton_append]
      obtain ⟨hend, ys, rfl, hys⟩ := ih hsteps' (happend ▸ hnodup) hlaid hrest
      rw [List.filter_cons_of_pos hhas, List.filter_cons_of_neg (by simp [hhas])]
      refine ⟨by rwa [List.append_assoc, List.singleton_append] at hend, xs ++ ys, ?_, fun s => ?_⟩
      · simp only [Manifest.addScaffold, List.append_assoc]
      · rw [List.mem_append, hxs, hys, ← listed_append, List.singleton_append]
    | false =>
      rw [hhas, if_neg Bool.false_ne_true] at hstep
      obtain ⟨rfl, hdisk⟩ := hstep
      have hsub : (copied ++ rest.map f).Nodup :=
        hnodup.sublist ((List.Sublist.refl copied).append (List.sublist_cons_self _ _))
      obtain ⟨hend, ys, rfl, hys⟩ := ih hsteps' hsub (hdisk ▸ h) hrest
      rw [List.filter_cons_of_neg (by simp [hhas]), List.filter_cons_of_pos (by simp [hhas])]
      refine ⟨hend, ys, ?_, hys⟩
      simp only [Manifest.warn, List.map_cons, List.append_assoc, List.singleton_append]

/-! ## The steps that copy -/

def fileWarning (p : Path) : String := "Scaffold file " ++ p.toString ++ " missing from template"

def directoryWarning (p : Path) : String := "Scaffold directory " ++ p.toString ++ " missing from template"

variable {before start : Disk} {root template : Path} {r t : Place}

theorem warn_eq_ok {m m' : Manifest} {warning : String} {w w' : World} (h : Project.warn m warning w = (.ok m', w')) :
    m' = m.warn warning ∧ w'.disk = w.disk := by
  cases h
  exact ⟨rfl, rfl⟩

/-- what a template has in one entry -/
theorem listed_singleton {p : Path} {s : String} : Listed before t [p] s ↔
    ∃ names c, before.fileAt? (t ++ p.parts ++ names) = some c ∧ s = Text.joinWith "/" (p.parts ++ names) := by
  constructor
  · rintro ⟨p', hmem, ns, c, hway, hc, rfl⟩
    obtain rfl := List.mem_singleton.1 hmem
    obtain ⟨names, rfl⟩ := hway
    rw [← List.append_assoc] at hc
    exact ⟨names, c, hc, rfl⟩
  · rintro ⟨names, c, hc, rfl⟩
    rw [List.append_assoc] at hc
    exact ⟨p, List.mem_singleton_self p, _, c, List.prefix_append _ _, hc, rfl⟩

/-- a file entry is all that a template has in it -/
theorem listed_file {p : Path} {s : String} {c : ByteArray} (htree : before.Tree)
    (hfile : before.fileAt? (t ++ p.parts) = some c) : Listed before t [p] s ↔ s = Text.joinWith "/" p.parts := by
  rw [listed_singleton]
  constructor
  · rintro ⟨names, c', hc', rfl⟩
    rw [htree.fileAt?_append hfile] at hc'
    split_ifs at hc' with hnil
    rw [hnil, List.append_nil]
  · rintro rfl
    exact ⟨[], c, by rwa [List.append_nil], by rw [List.append_nil]⟩

/-- what is left to do for a file entry that a template has -/
def copyItem (template root : Path) (m : Manifest) (item : Item) : Work Manifest := do
  Work.makeDirs (root.below item.path.parts.dropLast)
  Work.copyFile (template.below item.path.parts) (root.below item.path.parts)
  (if item.executable then Work.setMode (root.below item.path.parts) executableMode else pure () : Work Unit)
  pure (m.addScaffold [item.path.toString])

theorem copyScaffoldFile_eq {item : Item} (hp : item.path ∈ paths) (m : Manifest) :
    Project.copyScaffoldFile template root m item = (do
      if ← Work.isFile (template.join item.path) then copyItem template root m item
      else Project.warn m (fileWarning item.path)) := by
  have hup : (⟨(root.join item.path).root, (root.join item.path).parts.dropLast⟩ : Path) =
      root.below item.path.parts.dropLast := by
    rw [join_eq hp]
    show (⟨root.root, (root.parts ++ item.path.parts).dropLast⟩ : Path) = _
    rw [List.dropLast_append_of_ne_nil (parts_ne_nil _ hp)]
    rfl
  unfold Project.copyScaffoldFile copyItem
  dsimp only
  rw [hup, join_eq hp, join_eq hp]
  cases item.executable <;> rfl

/-- **A file entry is copied**, after the directories on its way were made. -/
theorem Laid.copyItem {copied : List Path} {item : Item} {m m' : Manifest} {w w' : World}
    (h : Laid before start r t copied w.disk) (hground : Ground before start root template r t) (hp : item.path ∈ paths)
    (hnew : item.path ∉ copied) (hhas : hasFile before t item.path = true) (hrun : copyItem template root m item w = (.ok m', w')) :
    m' = m.addScaffold [item.path.toString] ∧ Laid before start r t (copied ++ [item.path]) w'.disk := by
  obtain ⟨_, w₁, hmade, hrun⟩ := Work.bind_eq_ok hrun
  obtain ⟨_, w₂, hcopy, hrun⟩ := Work.bind_eq_ok hrun
  obtain ⟨_, w₃, hmode, hrun⟩ := Work.bind_eq_ok hrun
  cases hrun
  have hroot := (h.holding hground hground.root).stands
  have hwidened := Work.widened_below hroot fun hmem => up_not_mem _ hp (List.dropLast_subset _ hmem)
  have htree := Work.tree_makeDirs (root.below item.path.parts.dropLast) w h.tree
  rw [hmade] at hwidened htree
  have htarget : w₁.disk.placeOf (root.below item.path.parts) = r ++ item.path.parts := by
    rw [Disk.placeOf_below _ _ (up_not_mem _ hp), Disk.placeOf_congr hwidened.here, hroot.placeOf]
  have hsource : w₁.disk.placeOf (template.below item.path.parts) = t ++ item.path.parts := by
    rw [Disk.placeOf_below _ _ (up_not_mem _ hp), Disk.placeOf_congr hwidened.here,
      (h.holding hground hground.template).stands.placeOf]
  have hfree : w₁.disk.get? (w₁.disk.placeOf (root.below item.path.parts)) ≠ some .dir := by
    rw [htarget, ← List.append_nil (r ++ item.path.parts)]
    exact h.no_dir hp hnew hwidened []
  have hstamps := (Work.stampAt?_makeDirs _).of_run hmade
  -- what is copied is not beneath the root, so it is not what it is copied to
  have hne : w₁.disk.placeOf (template.below item.path.parts) ≠ w₁.disk.placeOf (root.below item.path.parts) := by
    obtain ⟨c, hbefore⟩ := Option.isSome_iff_exists.1 hhas
    obtain ⟨time, hbefore⟩ := Disk.fileAt?_eq_some_iff_stamped.1 hbefore
    rw [hsource, htarget]
    exact fun heq => h.file_apart hground hp (h.keptFile _ _ hbefore) (heq ▸ List.prefix_append r item.path.parts)
  obtain ⟨s, hs, hwrote, husable⟩ := Work.copyFile_wrote hcopy hfree hne
  rw [hsource, hstamps] at hs
  have hmoded : Disk.Wrote (w₂.disk.placeOf (root.below item.path.parts)) s w₂.disk w'.disk :=
    Work.setModeIf_wrote hmode (by rw [Disk.placeOf_congr hwrote.here]; exact hwrote.there)
  rw [Disk.placeOf_congr hwrote.here, htarget] at hmoded
  rw [htarget] at hwrote
  exact ⟨rfl, h.file hground hp hnew hs hwidened hstamps (hwrote.trans hmoded) htree husable.names⟩

/-- **One file entry.** -/
theorem copies_file (hground : Ground before start root template r t) {item : Item} (hp : item.path ∈ paths) :
    Copies before start r t (hasFile before t) fileWarning item.path fun m => Project.copyScaffoldFile template root m item := by
  intro copied m m' w w' hlaid hnew h
  dsimp only at h
  rw [copyScaffoldFile_eq hp] at h
  obtain ⟨b, hlook, h⟩ := (Work.still_isFile _).bind_eq_ok h
  obtain rfl := hlaid.isFile_eq hground hp (congrArg Prod.fst hlook)
  cases hhas : hasFile before t item.path with
  | false =>
    rw [hhas, if_neg Bool.false_ne_true] at h
    exact warn_eq_ok h
  | true =>
    rw [hhas, if_pos rfl] at h
    obtain ⟨c, hbefore⟩ := Option.isSome_iff_exists.1 hhas
    obtain ⟨rfl, hlaid'⟩ := hlaid.copyItem hground hp hnew hhas h
    refine ⟨_, rfl, fun s => ?_, hlaid'⟩
    rw [List.mem_singleton, toString_eq hp, listed_file hground.tree hbefore]

/-- **A directory entry is copied.** -/
theorem Laid.copyTree {copied : List Path} {p : Path} {w w' : World} (h : Laid before start r t copied w.disk)
    (hground : Ground before start root template r t) (hp : p ∈ directories) (hnew : p ∉ copied)
    (hhas : before.get? (t ++ p.parts) = some .dir)
    (hcopy : Work.copyTree (template.below p.parts) (root.below p.parts) w = (.ok (), w')) :
    Laid before start r t (copied ++ [p]) w'.disk := by
  have hpaths : p ∈ paths := List.mem_append_right _ hp
  have hdir : w.disk.get? (t ++ p.parts) = some .dir := h.kept _ _ hhas
  obtain ⟨hsource, hsame⟩ := h.directory_same hground hp hdir
  have hplace : w.disk.placeOf (template.below p.parts) = t ++ p.parts := by
    rw [Disk.placeOf_below _ _ (up_not_mem p hpaths), (h.holding hground hground.template).stands.placeOf]
  have hapart : ¬ t ++ p.parts <+: r ++ p.parts ∧ ¬ r ++ p.parts <+: t ++ p.parts :=
    ⟨fun h => (List.prefix_or_prefix_of_prefix h (List.prefix_append r p.parts)).elim (hground.apart p hp) hsource,
      fun h => hsource ((List.prefix_append r p.parts).trans h)⟩
  have hnames : ∀ names e, w.disk.get? (t ++ p.parts ++ names) = some e → ".." ∉ names := by
    intro names e he hmem
    rw [(hsame names).1] at he
    exact (hground.named _ e he ".." (List.mem_append_right _ hmem)).2.2.1 rfl
  obtain ⟨hadded, hmirrors, husable⟩ := Work.copyTree_mirrors (h.holding hground hground.root).stands h.tree
    (up_not_mem p hpaths) hplace hdir hapart hnames (fun names _ => h.free hpaths hnew names) (h.vacant hpaths hnew) hcopy
  exact h.directory hground hp hnew hdir hadded hmirrors fun names s hs => (husable names s hs).names

/-- what is listed of a directory entry of a template is what was there before -/
theorem Laid.filesUnder {copied : List Path} {p : Path} {w w' : World} {found : List (List String × ByteArray)}
    (h : Laid before start r t copied w.disk) (hground : Ground before start root template r t) (hp : p ∈ directories)
    (hhas : before.get? (t ++ p.parts) = some .dir)
    (hfound : Work.filesUnder (template.below p.parts) w = (.ok found, w')) :
    w' = w ∧ ∀ names c, (names, c) ∈ found ↔ before.fileAt? (t ++ p.parts ++ names) = some c := by
  have hdir : w.disk.get? (t ++ p.parts) = some .dir := h.kept _ _ hhas
  have hfound := Work.locate_bind_eq_ok hfound
  rw [Disk.placeOf_below _ _ (up_not_mem p (List.mem_append_right _ hp)),
    (h.holding hground hground.template).stands.placeOf] at hfound
  cases hfound
  refine ⟨rfl, fun names c => ?_⟩
  rw [Work.mem_inOrder, Disk.mem_filesUnder h.tree hdir, Disk.fileAt?_congr ((h.directory_same hground hp hdir).2 names).1]

/-- a file in a directory entry is listed as its path -/
theorem toString_join {p : Path} {names : List String} {c : ByteArray} (hnamed : before.Named) (hp : p ∈ paths)
    (hfile : before.fileAt? (t ++ p.parts ++ names) = some c) :
    (p.join ⟨"", names⟩).toString = Text.joinWith "/" (p.parts ++ names) := by
  obtain ⟨mode, hentry⟩ := Disk.fileAt?_eq_some_iff.1 hfile
  have hnames := hnamed _ _ hentry
  rw [List.append_assoc] at hnames
  show (⟨p.root, p.parts ++ names⟩ : Path).toString = _
  rw [root_eq p hp]
  exact Path.toString_relative (fun name hname => hnames name (List.mem_append_right t hname))
    (List.append_ne_nil_of_left_ne_nil (parts_ne_nil p hp) names)

/-- **One directory entry.** -/
theorem copies_directory (hground : Ground before start root template r t) {p : Path} (hp : p ∈ directories) :
    Copies before start r t (hasDirectory before t) directoryWarning p fun m => Project.copyScaffoldDir template root m p := by
  intro copied m m' w w' hlaid hnew h
  have hpaths : p ∈ paths := List.mem_append_right _ hp
  obtain ⟨b, hlook, h⟩ := (Work.still_isDir _).bind_eq_ok h
  obtain rfl := hlaid.isDir_eq hground hp (congrArg Prod.fst hlook)
  cases hhas : hasDirectory before t p with
  | false =>
    rw [hhas, if_neg Bool.false_ne_true] at h
    exact warn_eq_ok h
  | true =>
    rw [hhas, if_pos rfl] at h
    obtain ⟨_, w₁, hcopy, h⟩ := Work.bind_eq_ok h
    obtain ⟨found, w₂, hfound, h⟩ := Work.bind_eq_ok h
    cases h
    rw [join_eq hpaths] at hcopy hfound
    rw [join_eq hpaths] at hcopy
    have hdir := hasDirectory_iff.1 hhas
    have hlaid' := hlaid.copyTree hground hp hnew hdir hcopy
    obtain ⟨rfl, hmem⟩ := hlaid'.filesUnder hground hp hdir hfound
    refine ⟨_, rfl, fun s => ?_, hlaid'⟩
    rw [listed_singleton, List.mem_map]
    constructor
    · rintro ⟨⟨names, c⟩, hlisted, rfl⟩
      have hc := (hmem names c).1 hlisted
      exact ⟨names, c, hc, toString_join hground.named hpaths hc⟩
    · rintro ⟨names, c, hc, rfl⟩
      exact ⟨(names, c), (hmem names c).2 hc, toString_join hground.named hpaths hc⟩

/-! ## The whole scaffold -/

/-- the entries that a template has, in the order in which they are copied -/
def found (d : Disk) (t : Place) : List Path :=
  (files.map Item.path).filter (hasFile d t) ++ directories.filter (hasDirectory d t)

/-- one warning for each entry that a template lacks -/
def warnings (d : Disk) (t : Place) : List String :=
  ((files.map Item.path).filter fun p => !hasFile d t p).map fileWarning ++
    (directories.filter fun p => !hasDirectory d t p).map directoryWarning

/-- each entry is there or reported -/
theorem found_add_warnings (d : Disk) (t : Place) : (found d t).length + (warnings d t).length = paths.length := by
  have hfiles := List.length_eq_length_filter_add (l := files.map Item.path) (hasFile d t)
  have hdirs := List.length_eq_length_filter_add (l := directories) (hasDirectory d t)
  simp only [found, warnings, paths, List.length_append, List.length_map] at hfiles hdirs ⊢
  omega

/-- when the directories of the packages were made, no entry was copied yet -/
theorem laid_nil {w w' : World} {t : Place} (hvacant : w.disk.Vacant root) (htree : w.disk.Tree)
    (h : Artifact.packageDirs.forM (fun dir => Work.makeDirs (root.join dir)) w = (.ok (), w')) :
    Laid w.disk w'.disk (w.disk.placeOf root) t [] w'.disk ∧ w'.disk.Holding root (w.disk.placeOf root) .dir := by
  obtain ⟨hwidened, htree', hroot⟩ := Work.packages_made (by decide) hvacant.way htree h
  have hroot := hroot (by decide)
  have hentry : ∀ q, w'.disk.get? q = w.disk.get? q ∨ (q <+: w.disk.placeOf root ∨
      ∃ dir ∈ Artifact.packageDirs, Work.OnWay (w.disk.placeOf root) dir.parts q) ∧ w'.disk.get? q = some .dir :=
    fun q => (hwidened.entry q).imp id fun hnew => ⟨hnew.1, hnew.2.2⟩
  have hnil : ∃ dir ∈ Artifact.packageDirs, [] <+: dir.parts := by decide
  have hstamps := (Work.allows_stamps.forM fun dir _ => Work.stampAt?_makeDirs (root.join dir)).of_run h
  have hnone : ∀ names, w'.disk.stampAt? (w.disk.placeOf root ++ names) = none := by
    intro names
    by_cases hnames : names = []
    · rw [hnames, List.append_nil, Disk.stampAt?_of_dir hroot.2.2]
    · rw [hstamps, Disk.stampAt?, Disk.fileAt?, hvacant.empty names hnames]
      rfl
  refine ⟨⟨htree', hwidened.here, fun _ hq => hq, fun q e hq => hwidened.get? hq, fun q s hs => (hstamps q).trans hs,
    fun q e hr hq => ?_, List.nil_subset _, fun p hp => absurd hp List.not_mem_nil, fun names hdir => Or.inl ?_,
    fun names s => ?_, fun names s hs => ?_⟩, hroot⟩
  · rcases hentry q with heq | ⟨habove | ⟨dir, -, front, -, rfl⟩, hdir⟩
    · exact Or.inl (heq ▸ hq)
    · exact Or.inr ⟨Option.some.inj (hq.symm.trans hdir), habove⟩
    · exact absurd (List.prefix_append _ front) hr
  · rcases hentry (w.disk.placeOf root ++ names) with heq | ⟨habove | ⟨dir, hmem, front, hfront, heq⟩, -⟩
    · obtain rfl : names = [] := by
        by_contra hne
        rw [heq, hvacant.empty names hne] at hdir
        cases hdir
      exact hnil
    · obtain rfl : names = [] := by
        have hlength := habove.length_le
        rw [List.length_append] at hlength
        exact List.length_eq_zero_iff.1 (by omega)
      exact hnil
    · exact ⟨dir, hmem, List.append_cancel_left heq ▸ hfront⟩
  · rw [hnone names]
    constructor
    · intro hs
      cases hs
    · rintro ⟨p, hmem, -⟩
      exact absurd hmem List.not_mem_nil
  · rw [hnone names] at hs
    cases hs

end Scaffold

namespace Project

open Scaffold

variable {template : Option Path} {root dir : Path} {m : Manifest} {w w₁ w' : World} {t : Place}

theorem files_ok {before start : Disk} {r : Place} (hground : Ground before start root dir r t)
    (hlaid : Laid before start r t [] w.disk)
    (h : (Scaffold.files.foldlM (copyScaffoldFile dir root) {} >>= fun m =>
      directories.foldlM (copyScaffoldDir dir root) m) w = (.ok m, w')) :
    Laid before start r t (found before t) w'.disk ∧ m.warnings = warnings before t ∧ m.artifacts = [] ∧
      ∀ s, s ∈ m.scaffold ↔ Listed before t (found before t) s := by
  obtain ⟨m₁, w₁, hfiles, hdirs⟩ := Work.bind_eq_ok h
  have hpaths : ∀ item ∈ files, item.path ∈ paths := fun item hitem =>
    List.mem_append_left _ (List.mem_map_of_mem hitem)
  obtain ⟨hlaid₁, xs, rfl, hxs⟩ := copies_foldlM (fun item hitem => copies_file hground (hpaths item hitem))
    (by decide) hlaid hfiles
  rw [List.nil_append] at hlaid₁
  have hnodup : ((files.map Item.path).filter (hasFile before t) ++ directories.map id).Nodup := by
    rw [List.map_id]
    exact nodup_paths.sublist (List.filter_sublist.append (List.Sublist.refl _))
  obtain ⟨hlaid', ys, rfl, hys⟩ := copies_foldlM (f := id) (fun p hp => copies_directory hground hp) hnodup hlaid₁ hdirs
  rw [List.map_id] at hlaid' hys
  refine ⟨hlaid', ?_, rfl, fun s => ?_⟩
  · simp [warnings]
  · simp only [List.nil_append, List.mem_append, hxs, hys, found, listed_append]

/-- the warning that comes instead of a scaffold -/
def missingWarning (template : Option Path) : String :=
  "Template directory " ++ templateText template ++ " not found; generating sources only"

/-- **A scaffold that could be copied** beneath an empty root, after the directories of the packages were made. -/
theorem copyScaffold_ok (htree : w.disk.Tree) (hnamed : w.disk.Named) (hvacant : w.disk.Vacant root)
    (hapart : ∀ dir ∈ template, ∀ p ∈ directories, ¬ w.disk.placeOf dir ++ p.parts <+: w.disk.placeOf root)
    (hmade : Artifact.packageDirs.forM (fun dir => Work.makeDirs (root.join dir)) w = (.ok (), w₁))
    (h : copyScaffold template root {} w₁ = (.ok m, w')) :
    (∃ dir ∈ template, (Work.isDir dir w₁).1 = .ok true ∧
      Laid w.disk w₁.disk (w.disk.placeOf root) (w.disk.placeOf dir) (found w.disk (w.disk.placeOf dir)) w'.disk ∧
      m.warnings = warnings w.disk (w.disk.placeOf dir) ∧ m.artifacts = [] ∧
      ∀ s, s ∈ m.scaffold ↔ Listed w.disk (w.disk.placeOf dir) (found w.disk (w.disk.placeOf dir)) s) ∨
    (∀ dir ∈ template, (Work.exists? dir w₁).1 = .ok false) ∧ w'.disk = w₁.disk ∧ m = ⟨[], [], [missingWarning template]⟩ := by
  unfold copyScaffold at h
  cases template with
  | none =>
    obtain ⟨rfl, hdisk⟩ := warn_eq_ok h
    exact Or.inr ⟨nofun, hdisk, rfl⟩
  | some dir =>
    obtain ⟨there, hthere, h⟩ := (Work.still_exists? dir).bind_eq_ok h
    cases there with
    | false =>
      obtain ⟨rfl, hdisk⟩ := warn_eq_ok h
      refine Or.inr ⟨fun dir' hdir' => ?_, hdisk, rfl⟩
      cases hdir'
      exact congrArg Prod.fst hthere
    | true =>
      obtain ⟨isDir, hisDir, h⟩ := (Work.still_isDir dir).bind_eq_ok h
      cases isDir with
      | false => cases h
      | true =>
        obtain ⟨hlaid, hroot⟩ := laid_nil (t := w.disk.placeOf dir) hvacant htree hmade
        obtain ⟨q, e, hholding, he⟩ := Work.isDir_iff.1 (congrArg Prod.fst hisDir)
        cases e <;> cases he
        obtain rfl := (Disk.placeOf_of_locate hholding.2.1).trans (Disk.placeOf_congr hlaid.here dir)
        have hground : Ground w.disk w₁.disk root dir (w.disk.placeOf root) (w.disk.placeOf dir) :=
          ⟨htree, hnamed, hvacant.empty, hlaid.here, hroot, hholding, hapart dir rfl⟩
        obtain ⟨hlaid', hrest⟩ := files_ok hground hlaid h
        exact Or.inl ⟨dir, rfl, congrArg Prod.fst hisDir, hlaid', hrest⟩

/-! ## Clocks -/

open Work (Changes allows_sameClock)

theorem sameClock_warn (m : Manifest) (warning : String) : Changes Disk.SameClock (warn m warning) := fun w =>
  Disk.SameClock.refl w.disk

theorem sameClock_copyScaffoldFile (template root : Path) (m : Manifest) (item : Item) :
    Changes Disk.SameClock (copyScaffoldFile template root m item) := by
  refine allows_sameClock.bind (allows_sameClock.still (Work.still_isFile _)) fun there => ?_
  cases there with
  | false => exact sameClock_warn m _
  | true =>
    refine allows_sameClock.bind (Work.sameClock_makeDirs _) fun _ => ?_
    refine allows_sameClock.bind (Work.sameClock_copyFile _ _) fun _ => ?_
    cases item.executable with
    | false => exact allows_sameClock.still (Work.still_pure _)
    | true =>
      exact allows_sameClock.bind (Work.sameClock_setMode _ _) fun _ => allows_sameClock.still (Work.still_pure _)

theorem sameClock_copyScaffoldDir (template root : Path) (m : Manifest) (dir : Path) :
    Changes Disk.SameClock (copyScaffoldDir template root m dir) := by
  refine allows_sameClock.bind (allows_sameClock.still (Work.still_isDir _)) fun there => ?_
  cases there with
  | false => exact sameClock_warn m _
  | true =>
    refine allows_sameClock.bind (Work.sameClock_copyTree _ _) fun _ => ?_
    exact allows_sameClock.bind (allows_sameClock.still (Work.still_filesUnder _)) fun _ =>
      allows_sameClock.still (Work.still_pure _)

/-- copying a scaffold takes no time -/
theorem sameClock_copyScaffold (template : Option Path) (root : Path) (m : Manifest) :
    Changes Disk.SameClock (copyScaffold template root m) := by
  cases template with
  | none => exact sameClock_warn m _
  | some dir =>
    refine allows_sameClock.bind (allows_sameClock.still (Work.still_exists? dir)) fun there => ?_
    cases there with
    | false => exact sameClock_warn m _
    | true =>
      refine allows_sameClock.bind (allows_sameClock.still (Work.still_isDir dir)) fun isDir => ?_
      cases isDir with
      | false => exact allows_sameClock.still (Work.still_fail _)
      | true =>
        refine allows_sameClock.bind (allows_sameClock.foldlM (fun item _ m => ?_) m) fun m =>
          allows_sameClock.foldlM (fun dir _ m => ?_) m
        · exact sameClock_copyScaffoldFile _ root m item
        · exact sameClock_copyScaffoldDir _ root m dir

end Project

end Classwright