/-
The bodies in the request collection, read again.

Whatever the names and the written types of the attributes of a class are, the body that its requests send is ASCII and parses
as an object with one member for each attribute, in their order, the value being the example for that attribute. The names
come from the last node of the class, none of them twice, so the object loses none.

- `exact_exampleValue`: the examples are texts and whole numbers; `exampleBody_carries`: the body of a list of attributes;
- `Carries`: a text that shows attributes; `Folder.Posts`: the requests that send a text, as their document shows them;
- `bodies_carry_attributes`: all folders of a collection; `scrawl_carried`: names and types that have to be escaped.
-/
import Classwright.Proofs.JsonText
import Classwright.Proofs.NameTables
import Classwright.Proofs.Requests

namespace Classwright

/-- a text in ASCII that parses as an object with a member for each attribute, in their order, and nothing else -/
structure Carries (text : String) (attributes : List Attribute) : Prop where
  ascii : Json.Ascii text.toList
  parsed : Json.parse text = .ok (.obj (attributes.map fun a => (a.name, exampleValue a)))

theorem exact_exampleValue (a : Attribute) : (exampleValue a).Exact := by
  unfold exampleValue
  split
  · trivial
  · cases a.type <;> trivial

theorem membersExact_examples (attributes : List Attribute) :
    Json.MembersExact (attributes.map fun a => (a.name, exampleValue a)) := by
  induction attributes with
  | nil => trivial
  | cons a rest ih => exact ⟨exact_exampleValue a, ih⟩

/-- a body carries the attributes it was made for, as long as no two have the same name -/
theorem exampleBody_carries {attributes : List Attribute} (h : (attributes.map Attribute.name).Nodup) :
    Carries (exampleBody attributes) attributes := by
  have hexact : (Json.obj (exampleMembers attributes)).Exact := by
    rw [exampleMembers_eq h]
    refine ⟨?_, membersExact_examples attributes⟩
    rwa [List.map_map]
  refine ⟨Json.ascii_render Json.regular_indented 0 hexact, ?_⟩
  rw [← exampleMembers_eq h]
  exact (Json.parse_written hexact).2.2

-- quotes, controls and a character that takes a pair of escapes
example : exampleBody [⟨"", "a\"\\", .long, "long", none⟩, ⟨"", "\x7f", .other, "\n\x01é𝄞", none⟩] =
    "\x7b\n  \"a\\\"\\\\\": 123456789,\n  \"\\u007f\": \"Example\\n\\u0001\\u00e9\\ud834\\udd1e\"\n\x7d" := by
  decide

/-- the five requests of a folder; those that make and change an object show the text as their body, the others no body -/
structure Folder.Posts (f : Folder) (text : String) : Prop where
  methods : f.requests.map Request.method = ["GET", "GET", "POST", "PUT", "DELETE"]
  bodies : ∀ r ∈ f.requests, Request.bodyOf? (r.toJson.field "request") =
    some (if r.method = "POST" ∨ r.method = "PUT" then some text else none)

theorem Folder.posts_ofClass (name : String) (attributes : List Attribute) :
    (Folder.ofClass name attributes).Posts (exampleBody attributes) where
  methods := rfl
  bodies := by
    unfold Folder.ofClass
    simp only [List.forall_mem_cons]
    exact ⟨rfl, rfl, rfl, rfl, rfl, List.forall_mem_nil _⟩

/-- **Bodies carry the attributes.** A collection has a folder for each class of a diagram, in the order in which they come
first. In each, the requests that make and change an object have one and the same text for a body. It is ASCII and parses as
an object whose members are the settled attributes of the last node of the class, each once and in order, with their
examples. -/
theorem bodies_carry_attributes (name baseUrl : String) (d : Diagram) :
    (Collection.ofDiagram name baseUrl d).1.folders.map Folder.name =
        (d.nodes.map fun n => Naming.identifier n.label).eraseDups ∧
      ∀ f ∈ (Collection.ofDiagram name baseUrl d).1.folders, ∃ n text attributes,
        LastWith (fun n => Naming.identifier n.label) d.nodes f.name n ∧ Attribute.Settled n.attributes attributes ∧
        f.Posts text ∧ Carries text attributes := by
  constructor
  · show (d.nameTable.classes.map fun c => Folder.ofClass c.1 c.2).map Folder.name = _
    rw [List.map_map]
    exact d.names_eq_classOrder
  · intro f hf
    obtain ⟨c, hc, rfl⟩ := List.mem_map.1 hf
    have hget : Table.get? d.nameTable.classes c.1 = some c.2 :=
      Table.get?_of_mem (NameTable.closed_ofDiagram d).names_nodup hc
    obtain ⟨n, hn, hleft⟩ := (NameTable.get?_classes_iff d c.1 c.2).1 hget
    have hsettled : Attribute.Settled n.attributes c.2 := hleft ▸ NameTable.settled_distinctAttributes n.attributes
    exact ⟨n, exampleBody c.2, c.2, hn, hsettled, Folder.posts_ofClass c.1 c.2, exampleBody_carries hsettled.nodup⟩

/-- quotes, controls and a character that takes a pair of escapes, a name given twice, and a class without attributes -/
def scrawl : Diagram where
  nodes := [⟨"1", "log", [⟨"", "a\"\\", .string, "", none⟩, ⟨"", "\x7f𝄞", .other, "\n\x01é", none⟩,
      ⟨"", "a\"\\", .long, "long", none⟩], false⟩, ⟨"2", "blank", [], false⟩]
  edges := []
  metadata := .null

theorem scrawl_carried : ∃ f ∈ (Collection.ofDiagram "" "" scrawl).1.folders, f.name = "Log" ∧ ∃ text attributes,
    f.Posts text ∧ Carries text attributes ∧ attributes.map Attribute.name = ["a\"\\", "\x7f𝄞"] := by
  obtain ⟨-, hfolders⟩ := bodies_carry_attributes "" "" scrawl
  obtain ⟨f, rest, hfirst, hname⟩ : ∃ f rest, (Collection.ofDiagram "" "" scrawl).1.folders = f :: rest ∧ f.name = "Log" :=
    ⟨_, _, rfl, by decide +kernel⟩
  have hmem : f ∈ (Collection.ofDiagram "" "" scrawl).1.folders := hfirst ▸ List.mem_cons_self
  obtain ⟨n, text, attributes, hlast, hsettled, hposts, hcarries⟩ := hfolders f hmem
  have hnodup : (scrawl.nodes.map fun n => Naming.identifier n.label).Nodup := by decide +kernel
  -- the class has one node only
  have hnode : n.attributes.map Attribute.name = ["a\"\\", "\x7f𝄞", "a\"\\"] := by
    obtain ⟨hn, hlabel⟩ := (LastWith.iff_of_nodup hnodup).1 hlast
    have hall : ∀ n ∈ scrawl.nodes, Naming.identifier n.label = "Log" →
        n.attributes.map Attribute.name = ["a\"\\", "\x7f𝄞", "a\"\\"] := by decide +kernel
    exact hall n hn (hlabel.trans hname)
  exact ⟨f, hmem, hname, text, attributes, hposts, hcarries, by rw [hsettled.names, hnode]; rfl⟩

end Classwright
