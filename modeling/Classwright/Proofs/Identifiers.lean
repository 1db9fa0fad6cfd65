/-
The names that a generated project declares, and when the language admits them.

An identifier is made of letters, digits, underscores and dollar signs, does not begin with a digit, and is no reserved word.
A class is called by the letters and digits of its label, so its name can only begin wrong. The name of a field is that of a
class in lower case, so it can only be a reserved word. An attribute is called whatever the diagram calls it.

- `Java.IsIdentifier`: an admitted name; `Word`: its characters;
- `Naming.Capital`: a class name that begins with a letter; what is derived from it is a word, and with a capital in it no
  reserved word;
- `word_of_spelled`, `plain_of_reserved`: the names of fields; a number or an inverse name is never reserved;
- `Entity.declaredNames`: the names that the files of a class declare;
- `Diagram.WellNamed`: the labels, attributes and relationships that only lead to identifiers;
- `identifiers_declared`: the projects of these diagrams are those that declare nothing but identifiers.
-/
import Classwright.Proofs.Declarations
import Classwright.Proofs.Members

namespace Classwright

namespace Java

/-! ## Identifiers -/

def startsIdentifier (c : Char) : Bool := c.isAlpha || c == '_' || c == '$'

def continuesIdentifier (c : Char) : Bool := startsIdentifier c || c.isDigit

/-- the keywords of the language and the literals that are written like names -/
def reservedWords : List String := [
  "abstract", "assert", "boolean", "break", "byte", "case", "catch", "char", "class", "const", "continue", "default", "do",
  "double", "else", "enum", "extends", "final", "finally", "float", "for", "goto", "if", "implements", "import", "instanceof",
  "int", "interface", "long", "native", "new", "package", "private", "protected", "public", "return", "short", "static",
  "strictfp", "super", "switch", "synchronized", "this", "throw", "throws", "transient", "try", "void", "volatile", "while",
  "_", "true", "false", "null"]

/-- the characters of an identifier -/
def Word (cs : List Char) : Prop :=
  ∃ first rest, cs = first :: rest ∧ startsIdentifier first = true ∧ ∀ c ∈ rest, continuesIdentifier c = true

instance : DecidablePred Word
  | [] => isFalse fun ⟨_, _, h, _⟩ => by cases h
  | first :: rest =>
    decidable_of_iff (startsIdentifier first = true ∧ rest.all continuesIdentifier = true)
      ⟨fun h => ⟨first, rest, rfl, h.1, List.all_eq_true.1 h.2⟩,
        fun ⟨_, _, heq, hfirst, hrest⟩ => by cases heq; exact ⟨hfirst, List.all_eq_true.2 hrest⟩⟩

structure IsIdentifier (s : String) : Prop where
  word : Word s.toList
  unreserved : s ∉ reservedWords

instance (s : String) : Decidable (IsIdentifier s) :=
  decidable_of_iff (Word s.toList ∧ s ∉ reservedWords) ⟨fun h => ⟨h.1, h.2⟩, fun h => ⟨h.word, h.unreserved⟩⟩

theorem continues_of_alphanumeric {c : Char} (h : Naming.isAsciiAlphanumeric c = true) : continuesIdentifier c = true := by
  unfold continuesIdentifier startsIdentifier
  rcases Bool.or_eq_true_iff.1 h with h | h <;> simp [h]

theorem Word.append {cs more : List Char} (h : Word cs) (hmore : ∀ c ∈ more, Naming.isAsciiAlphanumeric c = true) :
    Word (cs ++ more) := by
  obtain ⟨first, rest, rfl, hfirst, hrest⟩ := h
  refine ⟨first, rest ++ more, rfl, hfirst, fun c hc => ?_⟩
  rcases List.mem_append.1 hc with hc | hc
  · exact hrest c hc
  · exact continues_of_alphanumeric (hmore c hc)

theorem word_of_alphanumeric {cs : List Char} (h : ∀ c ∈ cs, Naming.isAsciiAlphanumeric c = true)
    (hfirst : ∃ first, cs.head? = some first ∧ first.isAlpha = true) : Word cs := by
  obtain ⟨first, hhead, hletter⟩ := hfirst
  obtain ⟨rest, rfl⟩ := List.head?_eq_some_iff.1 hhead
  refine ⟨first, rest, rfl, ?_, fun c hc => continues_of_alphanumeric (h c (List.mem_cons_of_mem _ hc))⟩
  simp [startsIdentifier, hletter]

/-- reserved words have no capitals and no digits, and none begins like the name of an inverse field -/
theorem reserved_facts : ∀ w ∈ reservedWords, (w.toList.all fun c => !c.isUpper && !c.isDigit) = true ∧
    ¬ "inverse".toList <+: w.toList := by decide

theorem not_reserved_of_mem {s : String} {c : Char} (hc : c ∈ s.toList) (h : c.isUpper = true ∨ c.isDigit = true) :
    s ∉ reservedWords := by
  intro hs
  have hplain := List.all_eq_true.1 (reserved_facts s hs).1 c hc
  rcases h with h | h <;> simp [h] at hplain

theorem not_starts_of_isDigit {c : Char} (h : c.isDigit = true) : ¬ startsIdentifier c = true := by
  intro hstarts
  have hrange := Naming.isDigit_iff.1 h
  simp only [startsIdentifier, Bool.or_eq_true, beq_iff_eq] at hstarts
  rcases hstarts with (hletter | rfl) | rfl
  · rcases Bool.or_eq_true_iff.1 hletter with hupper | hlower
    · have := Naming.isUpper_iff.1 hupper
      omega
    · have := Naming.isLower_iff.1 hlower
      omega
  · exact absurd h (by decide)
  · exact absurd h (by decide)

end Java

open Java

/-! ## Names of classes -/

namespace Naming

/-- letters and digits, of which the first is a capital -/
structure Capital (name : String) : Prop where
  first : ∃ c, name.toList.head? = some c ∧ c.isUpper = true
  alphanumeric : ∀ c ∈ name.toList, isAsciiAlphanumeric c = true

theorem isUpper_toUpper {c : Char} (h : c.isAlpha = true) : c.toUpper.isUpper = true := by
  by_cases hl : c.isLower = true
  · have hrange := isLower_iff.1 hl
    have hshift := toNat_toUpper hl
    exact isUpper_iff.2 ⟨by omega, by omega⟩
  · rw [toUpper_of_not_isLower hl]
    exact (Bool.or_eq_true_iff.1 h).resolve_right hl

/-- the first letter or digit of a label -/
def initial? (label : String) : Option Char := label.toList.find? isAsciiAlphanumeric

theorem toList_className {label : String} {c : Char} (h : initial? label = some c) :
    ∃ rest, (className label).toList = c.toUpper :: rest := by
  unfold initial? at h
  rw [← List.head?_filter] at h
  obtain ⟨rest, hrest⟩ := List.head?_eq_some_iff.1 h
  refine ⟨rest, ?_⟩
  unfold className
  rw [String.toList_ofList, hrest]
  rfl

theorem initial?_isSome {label : String} (h : className label ≠ "") : ∃ c, initial? label = some c := by
  cases hinitial : initial? label with
  | some c => exact ⟨c, rfl⟩
  | none =>
    refine absurd ?_ h
    unfold initial? at hinitial
    rw [← List.head?_filter, List.head?_eq_none_iff] at hinitial
    unfold className
    rw [hinitial]
    rfl

/-- **A label whose first letter or digit is a letter has a class name that begins with a capital.** -/
theorem capital_className {label : String} (hne : className label ≠ "") (h : (initial? label).all Char.isAlpha = true) :
    Capital (className label) := by
  obtain ⟨c, hc⟩ := initial?_isSome hne
  obtain ⟨rest, hrest⟩ := toList_className hc
  have hletter : c.isAlpha = true := by rwa [hc] at h
  refine ⟨⟨c.toUpper, ?_, isUpper_toUpper hletter⟩, fun c hc => alphanumeric_of_mem_className hc⟩
  rw [hrest]
  rfl

/-- a class name that is an identifier comes from such a label -/
theorem isAlpha_of_identifier {label : String} (h : IsIdentifier (className label)) :
    (initial? label).all Char.isAlpha = true := by
  cases hc : initial? label with
  | none => rfl
  | some c =>
    obtain ⟨rest, hrest⟩ := toList_className hc
    obtain ⟨first, more, hword, hfirst, -⟩ := h.word
    obtain ⟨rfl, -⟩ := List.cons.inj (hrest.symm.trans hword)
    have hkept : isAsciiAlphanumeric c = true := by
      unfold initial? at hc
      exact List.find?_some hc
    rcases Bool.or_eq_true_iff.1 hkept with hletter | hdigit
    · exact hletter
    · rw [toUpper_of_isDigit hdigit] at hfirst
      exact absurd hfirst (not_starts_of_isDigit hdigit)

theorem toNat_lt_of_alphanumeric {c : Char} (h : isAsciiAlphanumeric c = true) : c.toNat < 128 := by
  rcases Bool.or_eq_true_iff.1 h with hletter | hdigit
  · rcases Bool.or_eq_true_iff.1 hletter with hupper | hlower
    · have := isUpper_iff.1 hupper
      omega
    · have := isLower_iff.1 hlower
      omega
  · have := isDigit_iff.1 hdigit
    omega

theorem isLower_toLower {c : Char} (h : c.isUpper = true) : c.toLower.isLower = true := by
  have hascii : ∀ n < 128, (Char.ofNat n).isUpper = true → (Char.ofNat n).toLower.isLower = true := by decide +kernel
  have hrange := isUpper_iff.1 h
  have hc := hascii c.toNat (by omega)
  rw [Char.ofNat_toNat] at hc
  exact hc h

theorem alphanumeric_upperFirst {s : String} (h : ∀ c ∈ s.toList, isAsciiAlphanumeric c = true) :
    ∀ c ∈ (Text.upperFirst s).toList, isAsciiAlphanumeric c = true := by
  unfold Text.upperFirst
  split
  · simp
  · next c rest hs =>
    rw [hs] at h
    have hc := h c List.mem_cons_self
    rw [String.toList_ofList, Text.upperChar, if_pos (toNat_lt_of_alphanumeric hc), List.singleton_append]
    exact List.forall_mem_cons.2 ⟨isAsciiAlphanumeric_toUpper hc, fun d hd => h d (List.mem_cons_of_mem _ hd)⟩

namespace Capital

variable {name : String}

/-- a class name with more letters and digits behind it -/
theorem identifier (h : Capital name) {ending : String} (hending : ∀ c ∈ ending.toList, isAsciiAlphanumeric c = true) :
    IsIdentifier (name ++ ending) := by
  obtain ⟨c, hc, hupper⟩ := h.first
  have hmem : c ∈ (name ++ ending).toList := by
    rw [String.toList_append]
    exact List.mem_append_left _ (List.mem_of_mem_head? hc)
  refine ⟨?_, not_reserved_of_mem hmem (Or.inl hupper)⟩
  rw [String.toList_append]
  exact (word_of_alphanumeric h.alphanumeric ⟨c, hc, Bool.or_eq_true_iff.2 (Or.inl hupper)⟩).append hending

/-- in lower case, a class name still begins with a letter -/
theorem toList_lowerFirst (h : Capital name) : ∃ first rest, (lowerFirst name).toList = first :: rest ∧
    first.isAlpha = true ∧ ∀ c ∈ rest, isAsciiAlphanumeric c = true := by
  obtain ⟨c, hc, hupper⟩ := h.first
  obtain ⟨rest, hrest⟩ := List.head?_eq_some_iff.1 hc
  have halphanumeric := h.alphanumeric
  rw [hrest] at halphanumeric
  refine ⟨c.toLower, rest, ?_, Bool.or_eq_true_iff.2 (Or.inr (isLower_toLower hupper)),
    fun d hd => halphanumeric d (List.mem_cons_of_mem _ hd)⟩
  unfold lowerFirst Text.lowerFirst
  rw [hrest]
  simp only [Text.lowerChar, toNat_lt_of_alphanumeric (halphanumeric c List.mem_cons_self), if_true, String.toList_ofList,
    List.singleton_append]

theorem alphanumeric_lowerFirst (h : Capital name) : ∀ c ∈ (lowerFirst name).toList, isAsciiAlphanumeric c = true := by
  obtain ⟨first, rest, hname, hfirst, hrest⟩ := h.toList_lowerFirst
  rw [hname]
  exact List.forall_mem_cons.2 ⟨by simp [isAsciiAlphanumeric, hfirst], hrest⟩

theorem word_lowerFirst (h : Capital name) : Word (lowerFirst name).toList := by
  obtain ⟨first, rest, hname, hfirst, -⟩ := h.toList_lowerFirst
  exact word_of_alphanumeric h.alphanumeric_lowerFirst ⟨first, by rw [hname]; rfl, hfirst⟩

end Capital

end Naming

/-! ## Names of relationship fields -/

section Fields

open Naming Relationship Classwright.Numbering

variable {k : Nat} {q : Placed}

theorem alphanumeric_suffix (k : Nat) : ∀ c ∈ (suffix k).toList, isAsciiAlphanumeric c = true := fun c hc => by
  simp [isAsciiAlphanumeric, isDigit_of_mem_suffix hc]

theorem alphanumeric_ending (many : Bool) (k : Nat) : ∀ c ∈ (ending many k).toList, isAsciiAlphanumeric c = true := by
  unfold ending
  rw [String.toList_append, List.forall_mem_append]
  exact ⟨by cases many <;> simp [isAsciiAlphanumeric], alphanumeric_suffix k⟩

/-- the name of a field that leads to a class with a capital is a word -/
theorem word_of_spelled (hs : q.Spelled k) (h : Capital q.field.related) : Word q.field.name.toList := by
  obtain ⟨many, hname | hname⟩ := hs.name
  · rw [hname, String.toList_append]
    exact h.word_lowerFirst.append (alphanumeric_ending many k)
  · rw [hname, String.toList_append]
    have hinverse : Word "inverse".toList := by decide
    refine hinverse.append (alphanumeric_upperFirst ?_)
    rw [String.toList_append]
    exact List.forall_mem_append.2 ⟨h.alphanumeric_lowerFirst, alphanumeric_ending many k⟩

/-- **A reserved name has no number** and belongs to no inverse field: it is that of a class in lower case or its plural. -/
theorem plain_of_reserved (hs : q.Spelled k) (h : q.field.name ∈ reservedWords) :
    q.field.name = lowerFirst q.field.related ∨ q.field.name = plural (lowerFirst q.field.related) := by
  obtain ⟨many, hname | hname⟩ := hs.name
  · have hsuffix : suffix k = "" := by
      by_contra hne
      obtain ⟨c, hc⟩ := List.exists_mem_of_ne_nil _ (mt String.toList_eq_nil_iff.1 hne)
      refine not_reserved_of_mem ?_ (Or.inr (isDigit_of_mem_suffix hc)) h
      rw [hname, ending, String.toList_append, String.toList_append]
      exact List.mem_append_right _ (List.mem_append_right _ hc)
    rw [hname, ending, hsuffix]
    cases many
    · exact Or.inl (by simp)
    · exact Or.inr (by simp [plural])
  · refine absurd ?_ (reserved_facts _ h).2
    rw [hname, String.toList_append]
    exact List.prefix_append _ _

/-- the member of a key that holds the key of the whole -/
theorem identifier_wholeId {whole : String} (h : Capital whole) (k : Nat) :
    IsIdentifier (lowerFirst whole ++ suffix k ++ "Id") := by
  have hmem : 'I' ∈ (lowerFirst whole ++ suffix k ++ "Id").toList := by
    rw [String.toList_append]
    exact List.mem_append_right _ List.mem_cons_self
  refine ⟨?_, not_reserved_of_mem hmem (Or.inl (by decide))⟩
  rw [String.toList_append, String.toList_append]
  exact (h.word_lowerFirst.append (alphanumeric_suffix k)).append (List.all_eq_true.1 (by decide))

end Fields

/-! ## What the files of a class declare -/

/-- the two members of a composite key -/
def CompositeIdentity.members (i : CompositeIdentity) : List Java.Member :=
  [⟨[], i.wholeIdType, i.wholeIdField⟩, ⟨[], i.ownIdType, "id"⟩]

theorem Java.hasLines_members (i : CompositeIdentity) : HasLines (renderId i) (i.members.map Member.render) := by
  have hwhole : ∀ type name : String, Member.render ⟨[], type, name⟩ = "    private " ++ type ++ " " ++ name ++ ";" := by
    intro type name
    rw [← String.toList_inj]
    simp [Member.render, Member.lines, Text.joinWith, indent]
  have hown : ∀ type : String, Member.render ⟨[], type, "id"⟩ = "    private " ++ type ++ " id;" := by
    intro type
    rw [hwhole, ← String.toList_inj]
    simp
  unfold CompositeIdentity.members
  rw [List.map_cons, List.map_cons, List.map_nil, hwhole, hown]
  unfold renderId
  exact hasLines_drop_take _ 13 2

/-- the names that the files of a class declare: its types, its members and those of its composite key -/
def Entity.declaredNames (e : Entity) : List String :=
  e.typeNames ++ (Java.entitySource e).members.map Java.Member.name ++
    e.identity.toList.flatMap fun i => i.members.map Java.Member.name

/-- a diagram in which every label begins, but for other signs, with a letter, every attribute is called by an identifier, and
no relationship gives a field the name of a reserved word -/
structure Diagram.WellNamed (d : Diagram) : Prop where
  labels : ∀ n ∈ d.nodes, (Naming.initial? n.label).all Char.isAlpha = true
  attributes : ∀ name ∈ d.nameTable.names, ∀ a ∈ d.nameTable.attributesOf name, IsIdentifier a.name
  fields : ∀ q ∈ d.placements, q.field.name ∉ reservedWords

instance (d : Diagram) : Decidable d.WellNamed :=
  decidable_of_iff ((∀ n ∈ d.nodes, (Naming.initial? n.label).all Char.isAlpha = true) ∧
      (∀ name ∈ d.nameTable.names, ∀ a ∈ d.nameTable.attributesOf name, IsIdentifier a.name) ∧
      ∀ q ∈ d.placements, q.field.name ∉ reservedWords)
    ⟨fun h => ⟨h.1, h.2.1, h.2.2⟩, fun h => ⟨h.labels, h.attributes, h.fields⟩⟩

namespace Diagram

variable {d : Diagram} {name : String}

/-- the classes of a diagram without a label taken as it stands -/
theorem exists_label (hlabels : ∀ n ∈ d.nodes, Naming.className n.label ≠ "") (h : name ∈ d.nameTable.names) :
    ∃ n ∈ d.nodes, name = Naming.className n.label := by
  obtain ⟨n, hn, hname⟩ := (NameTable.mem_names_ofDiagram d name).1 h
  exact ⟨n, hn, hname.symm.trans (Naming.identifier_of_ne (hlabels n hn))⟩

theorem related_mem_names {q : Placed} (h : q ∈ d.placements) : q.field.related ∈ d.nameTable.names := by
  obtain ⟨l, hl, k, -, hq⟩ := mem_placements h
  obtain ⟨⟨_, hs⟩, ⟨_, ht⟩⟩ := named_of_mem_links hl
  have hclosed := NameTable.closed_ofDiagram d
  rcases Link.ends hq with ⟨-, hr⟩ | ⟨-, hr⟩ <;> rw [hr]
  · exact hclosed.named_mem ht
  · exact hclosed.named_mem hs

theorem spelled {q : Placed} (h : q ∈ d.placements) : ∃ k, q.Spelled k := by
  obtain ⟨l, -, k, -, hq⟩ := mem_placements h
  exact ⟨k, l.spelled k q hq⟩

end Diagram

namespace Plan

variable {policy : Policy} {d : Diagram} {p : Plan} {e : Entity}

/-- the key of a part is named after a class of the diagram -/
theorem wholeId_of_build (h : build policy d = .ok p) (he : e ∈ p.entities) {i : CompositeIdentity} (hi : e.identity = some i) :
    ∃ whole ∈ d.nameTable.names, ∃ k, i.wholeIdField = Naming.lowerFirst whole ++ Numbering.suffix k ++ "Id" := by
  cases (held_of_build h e he).keyedBy (hasOwnKey_of_build h he) with
  | free _ hidentity _ =>
    rw [hidentity] at hi
    cases hi
  | part before after whole k hns _ hpart _ =>
    obtain ⟨own, -, hidentity⟩ := hpart.identity
    obtain rfl := Option.some.inj (hi.symm.trans hidentity)
    have hlink : e.partLink whole ∈ d.links := by
      rw [← map_fst_numbered [] d.links, hns, List.map_append, List.map_cons]
      exact List.mem_append_right _ List.mem_cons_self
    obtain ⟨⟨_, hs⟩, -⟩ := Diagram.named_of_mem_links hlink
    exact ⟨whole, (NameTable.closed_ofDiagram d).named_mem hs, k, rfl⟩

theorem wellNamed_of_identifiers (h : build policy d = .ok p) (hlabels : ∀ n ∈ d.nodes, Naming.className n.label ≠ "")
    (hall : ∀ e ∈ p.entities, ∀ n ∈ e.declaredNames, IsIdentifier n) : d.WellNamed := by
  have hmember : ∀ e ∈ p.entities, ∀ n ∈ e.keyNames ++ (e.attributeNames ++ e.fieldNames), IsIdentifier n := by
    intro e he n hn
    refine hall e he n (List.mem_append_left _ (List.mem_append_right _ ?_))
    rwa [Entity.names_members]
  refine ⟨fun n hn => ?_, fun name hname a ha => ?_, fun q hq => ?_⟩
  · have hname := Naming.identifier_of_ne (hlabels n hn)
    obtain ⟨e, he, hclass⟩ := (follows_of_build h).entity_of_mem ((NameTable.mem_names_ofDiagram d _).2 ⟨n, hn, hname⟩)
    refine Naming.isAlpha_of_identifier ?_
    rw [← hclass]
    exact hall e he _ (List.mem_append_left _ (List.mem_append_left _ List.mem_cons_self))
  · obtain ⟨e, he, rfl⟩ := (follows_of_build h).entity_of_mem hname
    rw [(NameTable.closed_ofDiagram d).attributesOf_eq (attributes_of_build h e he)] at ha
    by_cases hid : a.name = "id"
    · rw [hid]
      decide
    · refine hmember e he _ (List.mem_append_right _ (List.mem_append_left _ ?_))
      exact Entity.mem_attributeNames.2 ⟨hid, List.mem_map_of_mem ha⟩
  · obtain ⟨e, he, howner⟩ := (follows_of_build h).entity_of_mem (Diagram.owner_mem_names hq)
    refine (hmember e he _ (List.mem_append_right _ (List.mem_append_right _ ?_))).unreserved
    exact (mem_fieldNames h he).2 ⟨q, hq, howner.symm, rfl⟩

/-- the names of types are that of the class and those that begin with it -/
theorem identifier_typeNames (h : build policy d = .ok p) (he : e ∈ p.entities) (hcapital : Naming.Capital e.name) :
    ∀ n ∈ e.typeNames, IsIdentifier n := by
  have hending : ∀ ending : String, ending.toList.all Naming.isAsciiAlphanumeric = true → IsIdentifier (e.name ++ ending) :=
    fun ending h => hcapital.identifier (List.all_eq_true.1 h)
  have hself : IsIdentifier e.name := by
    have hempty := hending "" (by decide)
    rwa [String.append_empty] at hempty
  intro n hn
  rcases List.mem_append.1 hn with hn | hn
  · simp only [List.mem_cons, List.not_mem_nil, or_false] at hn
    rcases hn with rfl | rfl | rfl | rfl
    · exact hself
    · exact hending "Repository" (by decide)
    · exact hending "Service" (by decide)
    · exact hending "Controller" (by decide)
  · obtain ⟨i, hi, rfl⟩ := Option.map_eq_some_iff.1 (Option.mem_toList.1 hn)
    rw [idNamed_of_build h e he i hi]
    exact hending "Id" (by decide)

/-- a class of a key has a field for the key of the whole and one of its own -/
theorem identifier_idMembers (h : build policy d = .ok p) (he : e ∈ p.entities)
    (hcapital : ∀ name ∈ d.nameTable.names, Naming.Capital name) {i : CompositeIdentity} (hi : e.identity = some i) :
    ∀ n ∈ i.members.map Java.Member.name, IsIdentifier n := by
  obtain ⟨whole, hwhole, k, hfield⟩ := wholeId_of_build h he hi
  intro n hn
  rcases List.mem_cons.1 hn with rfl | hn
  · rw [show Java.Member.name ⟨[], i.wholeIdType, i.wholeIdField⟩ = i.wholeIdField from rfl, hfield]
    exact identifier_wholeId (hcapital whole hwhole) k
  · rw [List.mem_singleton.1 hn]
    show IsIdentifier "id"
    decide

theorem identifiers_of_wellNamed (h : build policy d = .ok p) (hlabels : ∀ n ∈ d.nodes, Naming.className n.label ≠ "")
    (hd : d.WellNamed) : ∀ e ∈ p.entities, ∀ n ∈ e.declaredNames, IsIdentifier n := by
  have hcapital : ∀ name ∈ d.nameTable.names, Naming.Capital name := by
    intro name hname
    obtain ⟨n, hn, rfl⟩ := Diagram.exists_label hlabels hname
    exact Naming.capital_className (hlabels n hn) (hd.labels n hn)
  intro e he
  have hname := name_mem_names h he
  have hmembers : ∀ n ∈ e.keyNames ++ (e.attributeNames ++ e.fieldNames), IsIdentifier n := by
    refine List.forall_mem_append.2 ⟨fun n hn => ?_, List.forall_mem_append.2 ⟨fun n hn => ?_, fun n hn => ?_⟩⟩
    · rw [(Entity.mem_keyNames.1 hn).1]
      decide
    · obtain ⟨a, ha, rfl⟩ := List.mem_map.1 (Entity.mem_attributeNames.1 hn).2
      refine hd.attributes e.name hname a ?_
      rwa [(NameTable.closed_ofDiagram d).attributesOf_eq (attributes_of_build h e he)]
    · obtain ⟨q, hq, -, rfl⟩ := (mem_fieldNames h he).1 hn
      obtain ⟨k, hspelled⟩ := Diagram.spelled hq
      exact ⟨word_of_spelled hspelled (hcapital _ (Diagram.related_mem_names hq)), hd.fields q hq⟩
  unfold Entity.declaredNames
  rw [Entity.names_members, List.forall_mem_append, List.forall_mem_append, List.forall_mem_flatMap]
  exact ⟨⟨identifier_typeNames h he (hcapital e.name hname), hmembers⟩,
    fun i hi => identifier_idMembers h he hcapital (Option.mem_toList.1 hi)⟩

end Plan

/-- **When all declared names are identifiers.** Where no label is taken as it stands, each file declares one type and each
class of a key two members, and the declared names of a project are identifiers exactly when its diagram is well named. Only a
field whose name is that of a class in lower case, or its plural, has the name of a reserved word. -/
theorem identifiers_declared (policy : Policy) (d : Diagram) (as : List Artifact) (h : render policy d = .ok as)
    (hlabels : ∀ n ∈ d.nodes, Naming.className n.label ≠ "") :
    ∃ p, Plan.build policy d = .ok p ∧ as = Artifact.ofPlan p ∧
      (∀ e ∈ p.entities, List.Forall₂ (fun a n => Java.Declares a.content n) (Artifact.ofEntity e) e.typeNames ∧
        ∀ i, e.identity = some i → Java.HasLines (Java.renderId i) (i.members.map Java.Member.render)) ∧
      ((∀ e ∈ p.entities, ∀ n ∈ e.declaredNames, IsIdentifier n) ↔ d.WellNamed) ∧
      ∀ q ∈ d.placements, q.field.name ∈ reservedWords → q.field.name = Naming.lowerFirst q.field.related ∨
        q.field.name = Naming.plural (Naming.lowerFirst q.field.related) := by
  obtain ⟨p, hp, rfl⟩ := artifacts_of_render h
  refine ⟨p, hp, rfl, fun e he => ⟨declares_files ?_ (idNamed_of_build hp e he), fun i _ => Java.hasLines_members i⟩,
    ⟨Plan.wellNamed_of_identifiers hp hlabels, Plan.identifiers_of_wellNamed hp hlabels⟩, fun q hq => ?_⟩
  · obtain ⟨n, -, heq⟩ := Diagram.exists_label hlabels (Plan.name_mem_names hp he)
    rw [heq]
    exact fun hblank => absurd (Naming.alphanumeric_of_mem_className hblank) (by decide)
  · obtain ⟨k, hspelled⟩ := Diagram.spelled hq
    exact plain_of_reserved hspelled

/-- an order with line items that are part of it, and a gift that is an order with an address -/
def present : Diagram where
  nodes := [⟨"o", "Order", [⟨"", "total", .int, "int", none⟩], false⟩,
    ⟨"i", "line item", [⟨"", "id", .int, "int", none⟩], false⟩,
    ⟨"g", "Gift 4 you", [⟨"", "_note", .string, "string", none⟩], false⟩, ⟨"a", "Address", [], false⟩]
  edges := [⟨"", "o", "i", none, none, none, .composition⟩, ⟨"", "o", "g", none, none, none, .inheritance⟩,
    ⟨"", "g", "a", none, some "1", some "1", .association none⟩]
  metadata := .null

theorem present_identifiers : ∃ as, render .fail present = .ok as ∧ ∃ p, as = Artifact.ofPlan p ∧
    ∀ e ∈ p.entities, ∀ n ∈ e.declaredNames, IsIdentifier n := by
  obtain ⟨p, -, has, -, hiff, -⟩ := identifiers_declared .fail present _ rfl (by decide)
  exact ⟨_, rfl, p, has, hiff.2 (by decide)⟩

/-- a model that comes in a package -/
def boxed : Diagram where
  nodes := [⟨"m", "3D Model", [⟨"", "first name", .string, "string", none⟩], false⟩, ⟨"p", "Package", [], false⟩]
  edges := [⟨"", "m", "p", none, some "1", some "1", .association none⟩]
  metadata := .null

/-- **Names that are no identifiers.** The class of the model begins with a digit, its attribute has a blank in its name, and
its package is a field called `package`. -/
theorem boxed_no_identifiers : (∀ n ∈ boxed.nodes, Naming.className n.label ≠ "") ∧
    ∃ p, Plan.build .lastWins boxed = .ok p ∧ Plan.build .fail boxed = .ok p ∧
      ∃ model ∈ p.entities, ∀ n ∈ ["3DModel", "first name", "package"], n ∈ model.declaredNames ∧ ¬ IsIdentifier n :=
  ⟨by decide, _, rfl, rfl, _, List.mem_cons_self, by decide⟩

end Classwright
