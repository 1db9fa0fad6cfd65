/-
The paths of the files of a diagram.

Every class has four files, and a class with a key from a whole a fifth one, beside its first. The path of a file is read off
the name of its class: a name may begin at the top, and it may lead through folders. Two files of one kind share their path
when their names have the same root, the same folders, and the same text behind the last slash. Files of two kinds share it
in one case only: a class is called like the key of a part.

- `Path.seat`: what of a name decides where its files are; `Path.child_append`: the path of a file;
- `Artifact.FileKind`, `kindsOf`: the kinds of files, and those of a class; `paths_ofEntity`: the paths of its files;
- `FileKind.same_of_path_eq`: files that share a path are in one package, with the same root, folders and file name;
- `Diagram.FilesApart`: no two classes have the same seat, and no class has that of a key;
- `length_ofPlan`, `nodup_paths_iff`: how many files there are, and when their paths are distinct.
-/
import Classwright.Proofs.Containment
import Classwright.Proofs.Parts

namespace Classwright

/-! ## Seats -/

/-- where a name leads: its root, the folders on the way, and what stands behind the last slash -/
structure Path.Seat where
  root : String
  folders : List String
  base : String
  deriving DecidableEq, Repr

namespace Path

def seat (s : String) : Seat := ⟨rootOf s.toList, folders s, base s⟩

theorem folders_append (s : String) {ending : String} (h : '/' ∉ ending.toList) : folders (s ++ ending) = folders s := by
  unfold folders
  rw [String.toList_append, Text.splitChars_append _ h, List.dropLast_concat]

theorem base_append (s : String) {ending : String} (h : '/' ∉ ending.toList) : base (s ++ ending) = base s ++ ending := by
  unfold base
  simp only [String.toList_append, Text.splitChars_append _ h, List.getLast_append_singleton, String.ofList_append,
    String.ofList_toList]

theorem seat_eq_iff {a b : String} :
    seat a = seat b ↔ rootOf a.toList = rootOf b.toList ∧ folders a = folders b ∧ base a = base b := by
  unfold seat
  rw [Seat.mk.injEq]

/-- **The path of a file**, by the root, the folders and the base of the name before its ending. -/
theorem child_append {dir : Path} (hdir : dir.root = "") (s : String) {ending : String} (h : '/' ∉ ending.toList)
    (hlength : 2 ≤ ending.toList.length) :
    dir.child (s ++ ending) =
      ⟨rootOf s.toList, (if rootOf s.toList = "" then dir.parts else []) ++ (folders s ++ [base s ++ ending])⟩ := by
  have hhead : ending.toList.head? ≠ some '/' := fun hhead => h (List.mem_of_mem_head? hhead)
  unfold child join isAbsolute ofString
  rw [names_append s h hlength, String.toList_append, rootOf_append _ hhead, hdir]
  by_cases hroot : rootOf s.toList = ""
  · rw [hroot]
    rfl
  · rw [if_pos (by simpa using hroot), if_neg hroot]
    rfl

end Path

/-- a name that begins at the top has no letter or digit -/
theorem Naming.letterless_of_rooted {label : String} (h : Path.rootOf (identifier label).toList ≠ "") :
    ∀ c ∈ (identifier label).toList, isAsciiAlphanumeric c = false := by
  by_cases hlabel : className label = ""
  · rw [identifier_of_eq hlabel]
    exact fun c hc => not_alphanumeric_of_className_empty hlabel hc
  · refine absurd ((Path.rootOf_eq_empty_iff _).2 fun hhead => ?_) h
    rw [identifier_of_ne hlabel] at hhead
    exact slash_not_mem_className label (List.mem_of_mem_head? hhead)

theorem Path.base_subset (s : String) {c : Char} (hc : c ∈ (base s).toList) : c ∈ s.toList := by
  unfold base at hc
  rw [String.toList_ofList] at hc
  exact Text.mem_of_mem_splitChars (List.getLast_mem _) hc

/-! ## The files of a class -/

namespace Artifact

/-- a kind of files: their directory, and what their names end in -/
structure FileKind where
  dir : Path
  ending : String
  deriving DecidableEq, Repr

def modelFile : FileKind := ⟨modelDir, ".java"⟩

/-- the file of a key, beside that of its class -/
def keyFile : FileKind := ⟨modelDir, "Id.java"⟩

/-- the files that every class has -/
def classKinds : List FileKind :=
  [modelFile, ⟨repositoryDir, "Repository.java"⟩, ⟨serviceDir, "Service.java"⟩, ⟨controllerDir, "Controller.java"⟩]

def kindsOf (e : Entity) : List FileKind := classKinds ++ if e.identity.isSome then [keyFile] else []

/-- the path of a file of the class with this name -/
def FileKind.path (k : FileKind) (name : String) : Path := k.dir.child (name ++ k.ending)

theorem paths_ofEntity {e : Entity} (hid : e.IdNamed) :
    (ofEntity e).map Artifact.path = (kindsOf e).map fun k => k.path e.name := by
  unfold ofEntity kindsOf
  cases hi : e.identity with
  | none => rfl
  | some i =>
    have hkey : modelDir.child (i.idClassName ++ ".java") = keyFile.path e.name := by
      rw [hid i hi, String.append_assoc]
      rfl
    simp only [List.map_append, List.map_cons, List.map_nil, hkey]
    rfl

theorem length_ofEntity (e : Entity) : (ofEntity e).length = 4 + if e.identity.isSome then 1 else 0 := by
  unfold ofEntity
  cases e.identity <;> rfl

/-- four files for every class, and one for every key -/
theorem length_ofPlan (p : Plan) : (ofPlan p).length = 4 * p.entities.length + p.identityCount := by
  unfold ofPlan ofEntities Plan.identityCount
  induction p.entities with
  | nil => rfl
  | cons e rest ih =>
    rw [List.flatMap_cons, List.length_append, length_ofEntity, ih, List.filter_cons, List.length_cons]
    split_ifs
    · rw [List.length_cons]
      omega
    · omega

namespace FileKind

def all : List FileKind := keyFile :: classKinds

theorem facts {k : FileKind} (h : k ∈ all) :
    k.dir.root = "" ∧ k.dir.parts.length = 7 ∧ '/' ∉ k.ending.toList ∧ 2 ≤ k.ending.toList.length := by
  revert k
  decide

theorem dir_of_parts : ∀ k ∈ all, ∀ k' ∈ all, k.dir.parts = k'.dir.parts → k.dir = k'.dir := by decide

/-- the letters of an ending tell its kind -/
theorem eq_of_letters : ∀ k ∈ all, ∀ k' ∈ all,
    k.ending.toList.filter Naming.isAsciiAlphanumeric = k'.ending.toList.filter Naming.isAsciiAlphanumeric →
    k = k' := by decide

/-- two kinds of files are in one package only where one of them is that of keys -/
theorem eq_or_key : ∀ k ∈ all, ∀ k' ∈ all, k.dir = k'.dir →
    k = k' ∨ (k = modelFile ∧ k' = keyFile) ∨ (k = keyFile ∧ k' = modelFile) := by decide

variable {k k' : FileKind} {a b : String}

theorem path_eq (h : k ∈ all) (name : String) :
    k.path name = ⟨Path.rootOf name.toList, (if Path.rootOf name.toList = "" then k.dir.parts else []) ++
      (Path.folders name ++ [Path.base name ++ k.ending])⟩ := by
  obtain ⟨hroot, -, hslash, hlength⟩ := facts h
  exact Path.child_append hroot name hslash hlength

/-- the letters of a file whose name has none are those of its ending -/
theorem letters_base (h : ∀ c ∈ a.toList, Naming.isAsciiAlphanumeric c = false) (k : FileKind) :
    (Path.base a ++ k.ending).toList.filter Naming.isAsciiAlphanumeric =
      k.ending.toList.filter Naming.isAsciiAlphanumeric := by
  have hbase : (Path.base a).toList.filter Naming.isAsciiAlphanumeric = [] := by
    rw [List.filter_eq_nil_iff]
    intro c hc
    rw [h c (Path.base_subset a hc)]
    exact Bool.false_ne_true
  rw [String.toList_append, List.filter_append, hbase, List.nil_append]

/-- **Files that share a path** are in one package, with the same root, folders and file name. -/
theorem same_of_path_eq (h : k ∈ all) (h' : k' ∈ all)
    (ha : Path.rootOf a.toList ≠ "" → ∀ c ∈ a.toList, Naming.isAsciiAlphanumeric c = false)
    (hb : Path.rootOf b.toList ≠ "" → ∀ c ∈ b.toList, Naming.isAsciiAlphanumeric c = false)
    (hpath : k.path a = k'.path b) :
    k.dir = k'.dir ∧ Path.rootOf a.toList = Path.rootOf b.toList ∧ Path.folders a = Path.folders b ∧
      Path.base a ++ k.ending = Path.base b ++ k'.ending := by
  rw [path_eq h, path_eq h', Path.mk.injEq] at hpath
  obtain ⟨hroot, hparts⟩ := hpath
  rw [← hroot] at hparts hb
  by_cases hrelative : Path.rootOf a.toList = ""
  · rw [if_pos hrelative, if_pos hrelative] at hparts
    have hlength : k.dir.parts.length = k'.dir.parts.length := (facts h).2.1.trans (facts h').2.1.symm
    obtain ⟨hdirs, hrest⟩ := List.append_inj hparts hlength
    obtain ⟨hfolders, hfile⟩ := List.append_inj' hrest (by simp only [List.length_singleton])
    exact ⟨dir_of_parts k h k' h' hdirs, hroot, hfolders, (List.cons.inj hfile).1⟩
  · rw [if_neg hrelative, if_neg hrelative, List.nil_append, List.nil_append] at hparts
    obtain ⟨hfolders, hfile⟩ := List.append_inj' hparts (by simp only [List.length_singleton])
    have hbase := (List.cons.inj hfile).1
    have hletters := congrArg (fun s => s.toList.filter Naming.isAsciiAlphanumeric) hbase
    rw [letters_base (ha hrelative), letters_base (hb hrelative)] at hletters
    rw [eq_of_letters k h k' h' hletters] at hbase ⊢
    exact ⟨rfl, hroot, hfolders, hbase⟩

/-- one kind of file at one seat is one file -/
theorem path_congr (h : k ∈ all) (hseat : Path.seat a = Path.seat b) : k.path a = k.path b := by
  obtain ⟨hroot, hfolders, hbase⟩ := Path.seat_eq_iff.1 hseat
  rw [path_eq h, path_eq h, hroot, hfolders, hbase]

/-- the key of a part is the file of a class with this name -/
theorem key_path (part : String) : keyFile.path part = modelFile.path (part ++ "Id") := by
  unfold path
  rw [String.append_assoc]
  rfl

/-- where the file of a class is that of a key, its name is at the seat of the key -/
theorem seat_of_key (hroot : Path.rootOf a.toList = Path.rootOf b.toList) (hfolders : Path.folders a = Path.folders b)
    (hfile : Path.base a ++ modelFile.ending = Path.base b ++ keyFile.ending) : Path.seat a = Path.seat (b ++ "Id") := by
  have hslash : '/' ∉ "Id".toList := by decide
  have hhead : "Id".toList.head? ≠ some '/' := by decide
  rw [show keyFile.ending = "Id" ++ modelFile.ending from rfl, ← String.append_assoc] at hfile
  rw [Path.seat_eq_iff, Path.folders_append b hslash, Path.base_append b hslash, String.toList_append,
    Path.rootOf_append _ hhead]
  exact ⟨hroot, hfolders, (String.append_left_inj _).1 hfile⟩

/-- **When two files are one.** They are of one kind and at one seat, or one is the key of a part and the other the file of
a class at the seat of this key. -/
theorem clash (h : k ∈ all) (h' : k' ∈ all)
    (ha : Path.rootOf a.toList ≠ "" → ∀ c ∈ a.toList, Naming.isAsciiAlphanumeric c = false)
    (hb : Path.rootOf b.toList ≠ "" → ∀ c ∈ b.toList, Naming.isAsciiAlphanumeric c = false)
    (hpath : k.path a = k'.path b) :
    (k = k' ∧ Path.seat a = Path.seat b) ∨ (k = modelFile ∧ k' = keyFile ∧ Path.seat a = Path.seat (b ++ "Id")) ∨
      (k = keyFile ∧ k' = modelFile ∧ Path.seat b = Path.seat (a ++ "Id")) := by
  obtain ⟨hdir, hroot, hfolders, hfile⟩ := same_of_path_eq h h' ha hb hpath
  rcases eq_or_key k h k' h' hdir with rfl | ⟨rfl, rfl⟩ | ⟨rfl, rfl⟩
  · exact Or.inl ⟨rfl, Path.seat_eq_iff.2 ⟨hroot, hfolders, (String.append_left_inj _).1 hfile⟩⟩
  · exact Or.inr (Or.inl ⟨rfl, rfl, seat_of_key hroot hfolders hfile⟩)
  · exact Or.inr (Or.inr ⟨rfl, rfl, seat_of_key hroot.symm hfolders.symm hfile.symm⟩)

end FileKind

end Artifact

/-! ## The files of a plan -/

namespace Plan

open Artifact (FileKind kindsOf modelFile keyFile classKinds)

variable {policy : Policy} {d : Diagram} {p : Plan}

/-- the classes of a plan are the identifiers of a diagram -/
theorem length_entities (h : build policy d = .ok p) :
    p.entities.length = (d.nodes.map fun n => Naming.identifier n.label).toFinset.card := by
  have hnodup := (NameTable.closed_ofDiagram d).names_nodup
  have hset : (d.nodes.map fun n => Naming.identifier n.label).toFinset = d.nameTable.names.toFinset := by
    ext name
    rw [List.mem_toFinset, List.mem_toFinset, NameTable.mem_names_ofDiagram, List.mem_map]
  rw [hset, List.toFinset_card_of_nodup hnodup, ← names_of_build h, List.length_map]

/-- the files of a plan, each by the name of its class and its kind -/
def files (p : Plan) : List (String × FileKind) := p.entities.flatMap fun e => (kindsOf e).map fun k => (e.name, k)

theorem mem_files {name : String} {k : FileKind} :
    (name, k) ∈ p.files ↔ ∃ e ∈ p.entities, e.name = name ∧ k ∈ kindsOf e := by
  unfold files
  simp only [List.mem_flatMap, List.mem_map, Prod.mk.injEq]
  constructor
  · rintro ⟨e, he, k', hk, hname, rfl⟩
    exact ⟨e, he, hname, hk⟩
  · rintro ⟨e, he, hname, hk⟩
    exact ⟨e, he, k, hk, hname, rfl⟩

theorem mem_kindsOf {e : Entity} {k : FileKind} : k ∈ kindsOf e ↔ k ∈ classKinds ∨ k = keyFile ∧ e.identity.isSome := by
  unfold kindsOf
  rw [List.mem_append]
  split_ifs with h <;> simp [h]

theorem mem_all_of_mem_kindsOf {e : Entity} {k : FileKind} (h : k ∈ kindsOf e) : k ∈ FileKind.all :=
  (mem_kindsOf.1 h).elim (List.mem_cons_of_mem _) fun hkey => List.mem_cons.2 (Or.inl hkey.1)

theorem nodup_kindsOf (e : Entity) : (kindsOf e).Nodup := by
  unfold kindsOf
  split_ifs <;> decide

theorem nodup_files (h : (p.entities.map Entity.name).Nodup) : p.files.Nodup := by
  unfold files
  rw [List.nodup_flatMap]
  refine ⟨fun e _ => (nodup_kindsOf e).map fun k k' hk => (Prod.mk.inj hk).2, ?_⟩
  refine (List.pairwise_map.1 h).imp fun {e e'} hne x hx hx' => ?_
  obtain ⟨k, -, rfl⟩ := List.mem_map.1 hx
  obtain ⟨k', -, heq⟩ := List.mem_map.1 hx'
  exact hne (Prod.mk.inj heq).1.symm

theorem paths_ofPlan (h : build policy d = .ok p) :
    (Artifact.ofPlan p).map Artifact.path = p.files.map fun x => x.2.path x.1 := by
  have hid := idNamed_of_build h
  unfold Artifact.ofPlan Artifact.ofEntities files
  rw [List.map_flatMap, List.map_flatMap]
  refine List.flatMap_congr fun e he => ?_
  rw [Artifact.paths_ofEntity (hid e he), List.map_map]
  rfl

/-- the classes with a key from a whole are the parts of the diagram -/
theorem identity_isSome_iff (h : build policy d = .ok p) {e : Entity} (he : e ∈ p.entities) :
    e.identity.isSome ↔ e.name ∈ d.wholeClaims.map Prod.fst := by
  have hkeyed := (held_of_build h e he).keyedBy (hasOwnKey_of_build h he)
  rw [← Option.isSome_map (f := CompositeIdentity.wholeClass), hkeyed.whole_eq, ← Diagram.wholeClaims_eq,
    Table.isSome_get?_iff, Table.keys, List.map_reverse, List.mem_reverse]

end Plan

namespace Diagram

/-- no two classes have the same seat, and no class has that of the key of a part -/
structure FilesApart (d : Diagram) : Prop where
  classes : ∀ a ∈ d.nameTable.names, ∀ b ∈ d.nameTable.names, Path.seat a = Path.seat b → a = b
  keys : ∀ part ∈ d.wholeClaims.map Prod.fst, ∀ name ∈ d.nameTable.names, Path.seat name ≠ Path.seat (part ++ "Id")

instance (d : Diagram) : Decidable d.FilesApart :=
  decidable_of_iff ((∀ a ∈ d.nameTable.names, ∀ b ∈ d.nameTable.names, Path.seat a = Path.seat b → a = b) ∧
      ∀ part ∈ d.wholeClaims.map Prod.fst, ∀ name ∈ d.nameTable.names, Path.seat name ≠ Path.seat (part ++ "Id"))
    ⟨fun h => ⟨h.1, h.2⟩, fun h => ⟨h.classes, h.keys⟩⟩

theorem letterless_of_mem_names {d : Diagram} {name : String} (h : name ∈ d.nameTable.names) :
    Path.rootOf name.toList ≠ "" → ∀ c ∈ name.toList, Naming.isAsciiAlphanumeric c = false := by
  obtain ⟨n, -, rfl⟩ := (NameTable.mem_names_ofDiagram d name).1 h
  exact Naming.letterless_of_rooted

end Diagram

namespace Plan

open Artifact (FileKind kindsOf modelFile keyFile classKinds)

variable {policy : Policy} {d : Diagram} {p : Plan}

theorem filesApart_of_nodup (h : build policy d = .ok p) (hnodup : ((Artifact.ofPlan p).map Artifact.path).Nodup) :
    d.FilesApart := by
  have hnames := names_of_build h
  have hfiles := nodup_files (hnames ▸ (NameTable.closed_ofDiagram d).names_nodup)
  rw [paths_ofPlan h, List.nodup_map_iff_inj_on hfiles] at hnodup
  have hclass : ∀ name ∈ d.nameTable.names, (name, modelFile) ∈ p.files := by
    intro name hname
    obtain ⟨e, he, rfl⟩ := List.mem_map.1 (hnames ▸ hname)
    exact mem_files.2 ⟨e, he, rfl, mem_kindsOf.2 (Or.inl List.mem_cons_self)⟩
  constructor
  · intro a ha b hb hseat
    have hpath : modelFile.path a = modelFile.path b := FileKind.path_congr (by decide) hseat
    exact (Prod.mk.inj (hnodup _ (hclass a ha) _ (hclass b hb) hpath)).1
  · intro part hpart name hname hseat
    obtain ⟨e, he, hkey⟩ : ∃ e ∈ p.entities, e.name = part := by
      obtain ⟨⟨_, whole⟩, hclaim, rfl⟩ := List.mem_map.1 hpart
      exact List.mem_map.1 (hnames ▸ Diagram.mem_names_of_wholeClaims hclaim)
    subst hkey
    have hmem : (e.name, keyFile) ∈ p.files :=
      mem_files.2 ⟨e, he, rfl, mem_kindsOf.2 (Or.inr ⟨rfl, (identity_isSome_iff h he).2 hpart⟩)⟩
    have hpath : modelFile.path name = keyFile.path e.name := by
      rw [FileKind.key_path]
      exact FileKind.path_congr (by decide) hseat
    exact absurd (Prod.mk.inj (hnodup _ (hclass name hname) _ hmem hpath)).2 (by decide)

theorem nodup_of_filesApart (h : build policy d = .ok p) (hapart : d.FilesApart) :
    ((Artifact.ofPlan p).map Artifact.path).Nodup := by
  have hnames := names_of_build h
  rw [paths_ofPlan h, List.nodup_map_iff_inj_on (nodup_files (hnames ▸ (NameTable.closed_ofDiagram d).names_nodup))]
  rintro ⟨a, k⟩ hx ⟨b, k'⟩ hy hpath
  obtain ⟨e, he, rfl, hk⟩ := mem_files.1 hx
  obtain ⟨e', he', rfl, hk'⟩ := mem_files.1 hy
  have hname : ∀ e ∈ p.entities, e.name ∈ d.nameTable.names := fun e he => hnames ▸ List.mem_map_of_mem he
  have hpart : ∀ e ∈ p.entities, keyFile ∈ kindsOf e → e.name ∈ d.wholeClaims.map Prod.fst := by
    intro e he hk
    refine (identity_isSome_iff h he).1 ((mem_kindsOf.1 hk).elim (fun hclass => ?_) And.right)
    exact absurd hclass (by decide)
  rcases FileKind.clash (mem_all_of_mem_kindsOf hk) (mem_all_of_mem_kindsOf hk') (Diagram.letterless_of_mem_names (hname e he))
    (Diagram.letterless_of_mem_names (hname e' he')) hpath with ⟨rfl, hseat⟩ | ⟨rfl, rfl, hseat⟩ | ⟨rfl, rfl, hseat⟩
  · have hsame : e.name = e'.name := hapart.classes _ (hname e he) _ (hname e' he') hseat
    exact Prod.mk.injEq .. |>.mpr ⟨hsame, rfl⟩
  · exact absurd hseat (hapart.keys _ (hpart e' he' hk') _ (hname e he))
  · exact absurd hseat (hapart.keys _ (hpart e he hk) _ (hname e' he'))

/-- **Distinct paths.** The files of a plan have distinct paths exactly when the files of the diagram are apart. -/
theorem nodup_paths_iff (h : build policy d = .ok p) :
    ((Artifact.ofPlan p).map Artifact.path).Nodup ↔ d.FilesApart :=
  ⟨filesApart_of_nodup h, nodup_of_filesApart h⟩

end Plan

end Classwright
