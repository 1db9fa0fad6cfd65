/-
The type that a generated file declares, read off its lines.

Every file declares one class or interface, in a line that begins with what it is; no other line of the file begins in that
way, whatever is called how. The name of the type reaches to the next blank.

- `Java.typeOf?`: the type that a line declares; `typeless_of_start`: a line that declares none is known by how it begins;
- `Java.Declares`: a file and the type it declares, with one lemma for each kind of file;
- `Entity.typeNames`, `declares_files`: the types of the files of a class.
-/
import Classwright.Proofs.Controllers

namespace Classwright

namespace Java

/-! ## Lines that declare a type -/

def typeOpenings : List (List Char) := ["public class ".toList, "public interface ".toList]

def untilBlank (cs : List Char) : String := String.ofList (cs.takeWhile fun c => c != ' ')

/-- the class or interface that a line declares -/
def typeOf? (line : String) : Option String :=
  typeOpenings.findSome? fun opening => (opening.isPrefixOf? line.toList).map untilBlank

/-- a file written from lines, of which one declares a type -/
def Declares (file name : String) : Prop := ∃ lines, file = text lines ∧ lines.filterMap typeOf? = [name]

/-- a line that declares no type -/
structure Typeless (line : String) : Prop where
  type : typeOf? line = none

/-- a beginning that no declaration of a type shares -/
def startsNoType (start : List Char) : Bool := typeOpenings.all fun opening => apart opening start

theorem typeless_of_start {start : List Char} (h : startsNoType start = true) (rest : String) :
    Typeless (String.ofList start ++ rest) := by
  constructor
  unfold typeOf?
  rw [String.toList_append, String.toList_ofList, List.findSome?_eq_none_iff]
  intro opening hopening
  rw [isPrefixOf?_of_apart (List.all_eq_true.1 h opening hopening)]
  rfl

/-- a line without a name in it is read as it stands -/
theorem typeless_of_chars {cs : List Char} (h : (typeOpenings.any fun opening => opening.isPrefixOf cs) = false) :
    Typeless (String.ofList cs) := by
  constructor
  unfold typeOf?
  rw [String.toList_ofList, List.findSome?_eq_none_iff]
  intro opening hopening
  cases hfound : opening.isPrefixOf? cs with
  | none => rfl
  | some rest =>
    have hprefix : opening <+: cs := ⟨rest, List.append_eq_of_isPrefixOf?_eq_some hfound⟩
    exact absurd (List.isPrefixOf_iff_prefix.2 hprefix) (List.any_eq_false.1 h opening hopening)

theorem untilBlank_append {name : String} (h : ' ' ∉ name.toList) (rest : List Char) :
    untilBlank (name.toList ++ ' ' :: rest) = name := by
  have hall : ∀ c ∈ name.toList, (c != ' ') = true := fun c hc => bne_iff_ne.2 fun heq => h (heq ▸ hc)
  unfold untilBlank
  rw [List.takeWhile_append_of_pos hall, List.takeWhile_cons_of_neg (by decide), List.append_nil, String.ofList_toList]

theorem typeOf?_class {name : String} (h : ' ' ∉ name.toList) (rest : List Char) {line : String}
    (hline : line.toList = "public class ".toList ++ (name.toList ++ ' ' :: rest)) : typeOf? line = some name := by
  unfold typeOf? typeOpenings
  rw [hline, List.findSome?_cons, List.isPrefixOf?_eq_some_iff_append_eq.2 rfl, Option.map_some, untilBlank_append h]

theorem typeOf?_interface {name : String} (h : ' ' ∉ name.toList) (rest : List Char) {line : String}
    (hline : line.toList = "public interface ".toList ++ (name.toList ++ ' ' :: rest)) : typeOf? line = some name := by
  unfold typeOf? typeOpenings
  rw [hline, List.findSome?_cons, isPrefixOf?_of_apart (by decide), List.findSome?_cons,
    List.isPrefixOf?_eq_some_iff_append_eq.2 rfl, Option.map_some, untilBlank_append h]
  rfl

section Lines

variable {line name : String} {lines more names : List String}

theorem types_silent (hline : Typeless line) (h : lines.filterMap typeOf? = names) :
    (line :: lines).filterMap typeOf? = names := by
  rw [List.filterMap_cons_none hline.type, h]

theorem types_found (hline : typeOf? line = some name) (h : lines.filterMap typeOf? = names) :
    (line :: lines).filterMap typeOf? = name :: names := by
  rw [List.filterMap_cons_some hline, h]

theorem types_silence (hmore : more.filterMap typeOf? = []) (h : lines.filterMap typeOf? = names) :
    (more ++ lines).filterMap typeOf? = names := by
  rw [List.filterMap_append, hmore, h, List.nil_append]

end Lines

/-! ## One type for each kind of file -/

theorem blank_not_mem_append {name ending : String} (h : ' ' ∉ name.toList) (hending : ' ' ∉ ending.toList) :
    ' ' ∉ (name ++ ending).toList := by
  rw [String.toList_append, List.mem_append, not_or]
  exact ⟨h, hending⟩

theorem declares_repository {name : String} (h : ' ' ∉ name.toList) :
    Declares (renderRepository name) (name ++ "Repository") := by
  refine ⟨_, rfl, ?_⟩
  simp only [String.append_assoc]
  repeat refine types_silent (by first | exact typeless_of_chars (by rfl) | exact typeless_of_start (by rfl) _) ?_
  refine types_found (typeOf?_interface (blank_not_mem_append h (by decide))
    ("extends JpaRepository<" ++ name ++ ", " ++ lookupKeyType ++ "> \x7b").toList ?_) ?_
  · simp [String.toList_append]
  · exact types_silent (typeless_of_chars (by rfl)) rfl

theorem declares_service {name : String} (h : ' ' ∉ name.toList) : Declares (renderService name) (name ++ "Service") := by
  refine ⟨_, rfl, ?_⟩
  simp only [String.append_assoc]
  repeat refine types_silent (by first | exact typeless_of_chars (by rfl) | exact typeless_of_start (by rfl) _) ?_
  refine types_found (typeOf?_class (blank_not_mem_append h (by decide)) ['\x7b'] ?_) ?_
  · simp [String.toList_append]
  · repeat refine types_silent (by first | exact typeless_of_chars (by rfl) | exact typeless_of_start (by rfl) _) ?_
    rfl

theorem types_typedEndpoints (name lower : String) : (typedEndpoints name lower).filterMap typeOf? = [] := by
  unfold typedEndpoints
  simp only [String.append_assoc]
  repeat refine types_silent (by first | exact typeless_of_chars (by rfl) | exact typeless_of_start (by rfl) _) ?_
  rfl

theorem declares_controller {e : Entity} (h : ' ' ∉ e.name.toList) :
    Declares (renderController e) (e.name ++ "Controller") := by
  have hstreams : (if e.isChild then ["import java.util.stream.Collectors;"] else []).filterMap typeOf? = [] := by
    split_ifs
    · exact types_silent (typeless_of_chars (by rfl)) rfl
    · rfl
  have htyped : (if e.isChild then typedEndpoints e.name e.lowerName else []).filterMap typeOf? = [] := by
    split_ifs
    · exact types_typedEndpoints e.name e.lowerName
    · rfl
  refine ⟨_, rfl, ?_⟩
  simp only [List.cons_append, List.nil_append, List.append_assoc, String.append_assoc]
  repeat refine types_silent (by first | exact typeless_of_chars (by rfl) | exact typeless_of_start (by rfl) _) ?_
  refine types_silence hstreams ?_
  repeat refine types_silent (by first | exact typeless_of_chars (by rfl) | exact typeless_of_start (by rfl) _) ?_
  refine types_found (typeOf?_class (blank_not_mem_append h (by decide)) ['\x7b'] ?_) ?_
  · simp [String.toList_append]
  · repeat refine types_silent (by first | exact typeless_of_chars (by rfl) | exact typeless_of_start (by rfl) _) ?_
    refine types_silence htyped ?_
    exact types_silent (typeless_of_chars (by rfl)) rfl

theorem declares_id {i : CompositeIdentity} (h : ' ' ∉ i.idClassName.toList) : Declares (renderId i) i.idClassName := by
  refine ⟨_, rfl, ?_⟩
  simp only [String.append_assoc]
  repeat refine types_silent (by first | exact typeless_of_chars (by rfl) | exact typeless_of_start (by rfl) _) ?_
  refine types_found (typeOf?_class h "implements Serializable \x7b".toList ?_) ?_
  · simp [String.toList_append]
  · repeat refine types_silent (by first | exact typeless_of_chars (by rfl) | exact typeless_of_start (by rfl) _) ?_
    rfl

/-! ## Entities -/

theorem joinWith_cons (sep s : String) (more : List String) : ∃ rest, Text.joinWith sep (s :: more) = s ++ rest := by
  cases more with
  | nil => exact ⟨"", String.append_empty.symm⟩
  | cons t more => exact ⟨sep ++ Text.joinWith sep (t :: more), String.append_assoc⟩

theorem joinWith_lineEnd {lines : List String} (h : lines ≠ []) : Text.joinWith "\n" lines ++ "\n" = text lines := by
  induction lines with
  | nil => exact absurd rfl h
  | cons l rest ih =>
    cases rest with
    | nil => simp [Text.joinWith, text]
    | cons m rest =>
      have hrest := ih (List.cons_ne_nil m rest)
      simp only [text, List.map_cons, String.join_cons] at hrest ⊢
      show l ++ "\n" ++ Text.joinWith "\n" (m :: rest) ++ "\n" = _
      rw [String.append_assoc, hrest]

theorem typeless_marking (a : Marking) : Typeless a.render := by
  unfold Marking.render
  rw [String.append_assoc]
  exact typeless_of_start (by rfl) _

/-- what is written of a member begins with its indentation -/
theorem exists_render (m : Member) : ∃ rest, m.render = indent ++ rest := by
  obtain ⟨l, ls, hlines⟩ : ∃ l ls, m.lines = l :: ls := by
    unfold Member.lines
    cases m.markings with
    | nil => exact ⟨_, _, rfl⟩
    | cons a as => exact ⟨_, _, rfl⟩
  obtain ⟨rest, hrest⟩ := joinWith_cons "\n" (indent ++ l) (ls.map fun l => indent ++ l)
  refine ⟨l ++ rest, ?_⟩
  rw [Member.render, hlines, List.map_cons, hrest, String.append_assoc]

theorem typeless_members {ms : List Member} (h : ms ≠ []) : Typeless (Text.joinWith "\n\n" (ms.map Member.render)) := by
  obtain ⟨m, more, rfl⟩ := List.exists_cons_of_ne_nil h
  obtain ⟨rest, hrest⟩ := joinWith_cons "\n\n" m.render (more.map Member.render)
  obtain ⟨first, hfirst⟩ := exists_render m
  rw [List.map_cons, hrest, hfirst, String.append_assoc]
  exact typeless_of_start (by rfl) _

theorem typeOf?_header {c : ClassSource} (h : ' ' ∉ c.name.toList) : typeOf? c.header = some c.name := by
  unfold ClassSource.header
  cases c.superclass with
  | none => exact typeOf?_class h ['\x7b'] (by simp [String.toList_append])
  | some s => exact typeOf?_class h ("extends " ++ s ++ " \x7b").toList (by simp [String.toList_append])

/-- a class declares itself, whatever its members are called -/
theorem declares_source {c : ClassSource} (h : ' ' ∉ c.name.toList) : Declares c.render c.name := by
  have himports : (c.imports.map fun s => "import " ++ s ++ ";").filterMap typeOf? = [] := by
    refine List.filterMap_eq_nil_iff.2 fun l hl => ?_
    obtain ⟨s, -, rfl⟩ := List.mem_map.1 hl
    rw [String.append_assoc]
    exact (typeless_of_start (by rfl) _).type
  have hmarkings : (c.markings.map Marking.render).filterMap typeOf? = [] := by
    refine List.filterMap_eq_nil_iff.2 fun l hl => ?_
    obtain ⟨a, -, rfl⟩ := List.mem_map.1 hl
    exact (typeless_marking a).type
  have hmembers : (if c.members.isEmpty then []
      else [Text.joinWith "\n\n" (c.members.map Member.render)]).filterMap typeOf? = [] := by
    split_ifs with hempty
    · rfl
    · exact types_silent (typeless_members fun hnil => hempty (by rw [hnil]; rfl)) rfl
  refine ⟨c.lines, joinWith_lineEnd (by simp [ClassSource.lines]), ?_⟩
  unfold ClassSource.lines
  simp only [List.cons_append, List.nil_append, List.append_assoc, String.append_assoc] at himports ⊢
  refine types_silent (by exact typeless_of_start (by rfl) _) ?_
  refine types_silent (typeless_of_chars (by rfl)) ?_
  refine types_silence himports ?_
  refine types_silent (typeless_of_chars (by rfl)) ?_
  refine types_silence hmarkings ?_
  refine types_found (typeOf?_header h) ?_
  refine types_silence hmembers ?_
  exact types_silent (typeless_of_chars (by rfl)) rfl

theorem declares_entity {e : Entity} (h : ' ' ∉ e.name.toList) : Declares (renderEntity e) e.name :=
  declares_source (c := entitySource e) h

end Java

/-! ## The files of a class -/

/-- the types that the files of a class declare -/
def Entity.typeNames (e : Entity) : List String :=
  [e.name, e.name ++ "Repository", e.name ++ "Service", e.name ++ "Controller"] ++
    (e.identity.map CompositeIdentity.idClassName).toList

/-- **Each file of a class declares its own type**, as long as no name has a blank in it. -/
theorem declares_files {e : Entity} (h : ' ' ∉ e.name.toList) (hid : e.IdNamed) :
    List.Forall₂ (fun a n => Java.Declares a.content n) (Artifact.ofEntity e) e.typeNames := by
  unfold Artifact.ofEntity Entity.typeNames
  simp only [List.cons_append, List.nil_append, List.forall₂_cons]
  refine ⟨Java.declares_entity h, Java.declares_repository h, Java.declares_service h, Java.declares_controller h, ?_⟩
  cases hi : e.identity with
  | none => exact .nil
  | some i =>
    refine .cons (Java.declares_id ?_) .nil
    rw [hid i hi]
    exact Java.blank_not_mem_append h (by decide)

end Classwright
