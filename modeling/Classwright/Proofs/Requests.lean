/-
The request collection and the generated interface.

The requests of a collection and the controllers of a project are written independently, from the same diagram. For every
diagram there is a folder for each class of the plan, in the order of the plan. Its five requests are those that the
controller of the class answers, and the bodies it sends have a member for each attribute of the class, a whole number where
the entity declares one.

- `Collection.read?`: a collection read off its document; `read?_toJson`: nothing is lost in between;
- `Java.Mapping.call`: the verb and the path that an endpoint answers;
- `Entity.Declares`, `Entity.declares_iff`: the fields that an entity declares for its attributes;
- `Entity.Fits`, `fits_exampleMembers`: a body with a member for each attribute, of the declared kind;
- `Folder.Calls`, `Folder.Sends`: the requests of a folder, and their bodies;
- `requests_match_controllers`: all of it, for every diagram.
-/
import Classwright.Proofs.Controllers
import Classwright.Proofs.Rereading

namespace Classwright

/-! ## Documents -/

theorem mapM_map_of_left_inverse {α β : Type} {f : β → Option α} {g : α → β} (h : ∀ a, f (g a) = some a) (xs : List α) :
    (xs.map g).mapM f = some xs := by
  induction xs with
  | nil => rfl
  | cons x rest ih => rw [List.map_cons, List.mapM_cons, h, ih]; rfl

namespace Json

/-- a list of texts -/
def texts? (j : Json) : Option (List String) := j.items?.bind fun items => items.mapM str?

theorem texts?_ofStrings (xs : List String) : (ofStrings xs).texts? = some xs :=
  mapM_map_of_left_inverse (f := str?) (g := .str) (fun _ => rfl) xs

end Json

namespace Request

/-- the text of a body, where there is a body -/
def bodyOf? (j : Json) : Option (Option String) :=
  match j.get? "body" with
  | some body => (body.field "raw").str?.map some
  | none => some none

/-- a request as it stands in a document -/
def read? (j : Json) : Option Request := do
  let name ← (j.field "name").str?
  let request := j.field "request"
  let method ← (request.field "method").str?
  let path ← ((request.field "url").field "path").texts?
  let description ← (request.field "description").str?
  let body ← bodyOf? request
  return ⟨name, method, path, description, body⟩

theorem read?_toJson (r : Request) : read? r.toJson = some r := by
  obtain ⟨name, method, path, description, body⟩ := r
  cases body with
  | none =>
    show (Json.ofStrings path).texts?.bind (fun path => some (Request.mk name method path description none)) = _
    rw [Json.texts?_ofStrings]
    rfl
  | some text =>
    show (Json.ofStrings path).texts?.bind (fun path => some (Request.mk name method path description (some text))) = _
    rw [Json.texts?_ofStrings]
    rfl

end Request

namespace Folder

def read? (j : Json) : Option Folder := do
  let name ← (j.field "name").str?
  let requests ← (← (j.field "item").items?).mapM Request.read?
  return ⟨name, requests⟩

theorem read?_toJson (f : Folder) : read? f.toJson = some f := by
  show ((f.requests.map Request.toJson).mapM Request.read?).bind (fun requests => some (Folder.mk f.name requests)) = _
  rw [mapM_map_of_left_inverse Request.read?_toJson]
  rfl

end Folder

namespace Collection

/-- a collection as its document shows it -/
def read? (j : Json) : Option Collection := do
  let name ← ((j.field "info").field "name").str?
  let given ← (j.field "variable").items?
  let baseUrl ← ((← given.head?).field "value").str?
  let folders ← (← (j.field "item").items?).mapM Folder.read?
  return ⟨name, baseUrl, folders⟩

theorem read?_toJson (c : Collection) : read? c.toJson = some c := by
  show ((c.folders.map Folder.toJson).mapM Folder.read?).bind (fun folders => some (Collection.mk c.name c.baseUrl folders)) = _
  rw [mapM_map_of_left_inverse Folder.read?_toJson]
  rfl

end Collection

/-! ## Requests -/

/-- the verb and the path of a request -/
def Request.call (r : Request) : String × List String := (r.method, r.path)

/-- the verb and the path that an endpoint answers; where it has a path of its own, that is the id of an object -/
def Java.Mapping.call (lower : String) (m : Mapping) : String × List String :=
  (m.verb.method, ["api", lower] ++ if m.path = some "/\x7bid\x7d" then [placeholder (lower ++ "Id")] else [])

/-- the requests of a folder are, one by one, those that the controller of a class answers under its route -/
structure Folder.Calls (f : Folder) (e : Entity) : Prop where
  controller : ∃ more, Java.Controls (Java.renderController e) e.name ("/api/" ++ e.lowerName) (Java.crudMappings ++ more) ∧
    (e.isChild = false → more = [])
  requests : f.requests.map Request.call = Java.crudMappings.map (Java.Mapping.call e.lowerName)
  distinct : (f.requests.map Request.call).Nodup

theorem Folder.calls_ofClass (e : Entity) : (Folder.ofClass e.name e.attributes).Calls e where
  controller := by
    obtain ⟨more, hcontrols, hmore, -⟩ := Java.controls_controller e
    exact ⟨more, hcontrols, hmore⟩
  requests := rfl
  distinct := by
    simp [Folder.ofClass, Request.call]

/-! ## Bodies -/

/-- an entity declares a field for an attribute: a plain one, unlike keys and relationships -/
def Entity.Declares (e : Entity) (name type : String) : Prop := ⟨[], type, name⟩ ∈ (Java.entitySource e).members

theorem Entity.declares_iff (e : Entity) (name type : String) :
    e.Declares name type ↔ ∃ a ∈ e.attributes, a.name ≠ "id" ∧ a.name = name ∧ Naming.javaType a.type = type := by
  -- keys and relationships are never without annotations
  have hkey : (⟨[], type, name⟩ : Java.Member) ∉ (Java.keyMember e).toList := by
    rw [Option.mem_toList]
    unfold Java.keyMember
    split
    · nofun
    · split_ifs <;> nofun
  have hrelation : (⟨[], type, name⟩ : Java.Member) ∉ e.fields.map Java.relationMember := by
    rw [List.mem_map]
    rintro ⟨f, -, hf⟩
    exact List.cons_ne_nil _ _ (congrArg Java.Member.markings hf)
  have hmem : e.Declares name type ↔ (⟨[], type, name⟩ : Java.Member) ∈ Java.attributeMembers e := by
    show _ ∈ (Java.keyMember e).toList ++ Java.attributeMembers e ++ e.fields.map Java.relationMember ↔ _
    rw [List.mem_append, List.mem_append, or_iff_left hrelation, or_iff_right hkey]
  rw [hmem]
  unfold Java.attributeMembers
  simp only [List.mem_map, List.mem_filter, bne_iff_ne, Java.Member.mk.injEq, true_and, and_assoc]
  exact exists_congr fun a => and_congr_right fun _ => and_congr_right fun _ => And.comm

/-- a body has one member for each attribute of an entity, and a whole number for each that the entity declares as one -/
structure Entity.Fits (e : Entity) (ms : Members) : Prop where
  keys : ms.map Prod.fst = e.attributes.map Attribute.name
  nodup : (ms.map Prod.fst).Nodup
  values : ∀ a ∈ e.attributes, a.name ≠ "id" → ∃ value type, (∀ v, (a.name, v) ∈ ms ↔ v = value) ∧
    (∀ t, e.Declares a.name t ↔ t = type) ∧ ((∃ n, value = .int n) ↔ type = "Integer" ∨ type = "Long")

theorem exampleMembers_eq {attributes : List Attribute} (h : (attributes.map Attribute.name).Nodup) :
    exampleMembers attributes = attributes.map fun a => (a.name, exampleValue a) := by
  have hupdate : exampleMembers attributes = Members.update [] (attributes.map fun a => (a.name, exampleValue a)) := by
    unfold exampleMembers Members.update
    rw [List.foldl_map]
  rw [hupdate, Members.update_nil (by rwa [List.map_map])]

theorem isInt_exampleValue {a : Attribute} (h : a.name ≠ "id") :
    (∃ n, exampleValue a = .int n) ↔ Naming.javaType a.type = "Integer" ∨ Naming.javaType a.type = "Long" := by
  unfold exampleValue
  rw [if_neg h]
  cases a.type <;> simp [Naming.javaType]

theorem Entity.fits_exampleMembers {e : Entity} (h : (e.attributes.map Attribute.name).Nodup) :
    e.Fits (exampleMembers e.attributes) := by
  have hunique : ∀ {a b : Attribute}, a ∈ e.attributes → b ∈ e.attributes → a.name = b.name → a = b :=
    fun ha hb heq => List.inj_on_of_nodup_map h ha hb heq
  have hkeys : (exampleMembers e.attributes).map Prod.fst = e.attributes.map Attribute.name := by
    rw [exampleMembers_eq h, List.map_map]
    rfl
  refine ⟨hkeys, hkeys ▸ h, fun a ha hid => ⟨exampleValue a, Naming.javaType a.type, fun v => ?_, fun t => ?_,
    isInt_exampleValue hid⟩⟩
  · rw [exampleMembers_eq h, List.mem_map]
    constructor
    · rintro ⟨b, hb, heq⟩
      obtain ⟨hname, rfl⟩ := Prod.mk.inj heq
      rw [hunique hb ha hname]
    · rintro rfl
      exact ⟨a, ha, rfl⟩
  · rw [e.declares_iff]
    constructor
    · rintro ⟨b, hb, -, hname, rfl⟩
      rw [hunique hb ha hname]
    · rintro rfl
      exact ⟨a, ha, hid, rfl, rfl⟩

/-- the requests that make and change objects send one and the same body, the others none -/
structure Folder.Sends (f : Folder) (e : Entity) : Prop where
  body : ∃ ms, e.Fits ms ∧ ∀ r ∈ f.requests,
    r.body = if r.method = "POST" ∨ r.method = "PUT" then some (Json.indented (.obj ms)) else none

theorem Folder.sends_ofClass {e : Entity} (h : (e.attributes.map Attribute.name).Nodup) :
    (Folder.ofClass e.name e.attributes).Sends e where
  body := by
    refine ⟨_, Entity.fits_exampleMembers h, ?_⟩
    unfold Folder.ofClass
    simp only [List.forall_mem_cons]
    exact ⟨rfl, rfl, rfl, rfl, rfl, List.forall_mem_nil _⟩

/-! ## Plans -/

namespace Plan

/-- the classes of a plan with their attributes are those of the name table, in the same order -/
theorem classes_of_build {policy : Policy} {d : Diagram} {p : Plan} (h : build policy d = .ok p) :
    p.entities.map (fun e => (e.name, e.attributes)) = d.nameTable.classes := by
  have hclosed := NameTable.closed_ofDiagram d
  calc p.entities.map (fun e => (e.name, e.attributes))
      = p.entities.map (fun e => (e.name, d.nameTable.attributesOf e.name)) := List.map_congr_left fun e he => by
        rw [hclosed.attributesOf_eq (attributes_of_build h e he)]
    _ = d.nameTable.names.map (fun n => (n, d.nameTable.attributesOf n)) := by
        rw [← names_of_build h, List.map_map]
        rfl
    _ = d.nameTable.classes.map (fun c => (c.1, d.nameTable.attributesOf c.1)) := List.map_map
    _ = d.nameTable.classes := by
        refine (List.map_congr_left fun c hc => ?_).trans (List.map_id _)
        have hattributes : d.nameTable.attributesOf c.1 = c.2 := hclosed.attributesOf_eq hc
        rw [hattributes]
        rfl

theorem folders_of_build {policy : Policy} {d : Diagram} {p : Plan} (h : build policy d = .ok p) (name baseUrl : String) :
    (Collection.ofDiagram name baseUrl d).1.folders = p.entities.map fun e => Folder.ofClass e.name e.attributes := by
  show d.nameTable.classes.map (fun c => Folder.ofClass c.1 c.2) = _
  rw [← classes_of_build h, List.map_map]
  rfl

end Plan

/-- **The request collection matches the generated interface.** For every diagram the document shows a folder for each class
of the plan of the last claims, in the order of the plan. Its requests are, one by one, those that the controller of the
class answers under its route, and the bodies it sends have a member for each attribute, a whole number exactly where the
entity declares one. -/
theorem requests_match_controllers (name baseUrl : String) (d : Diagram) :
    ∃ p c, Plan.build .lastWins d = .ok p ∧ render .lastWins d = .ok (Artifact.ofPlan p) ∧
      Collection.read? (Collection.ofDiagram name baseUrl d).1.toJson = some c ∧
      c.folders.map Folder.name = p.entities.map Entity.name ∧
      List.Forall₂ (fun f e => f.Calls e ∧ f.Sends e) c.folders p.entities ∧
      ∀ e ∈ p.entities,
        ⟨Artifact.controllerDir.child (e.name ++ "Controller.java"), e.name, Java.renderController e⟩ ∈ Artifact.ofPlan p ∧
        ⟨Artifact.modelDir.child (e.name ++ ".java"), e.name, (Java.entitySource e).render⟩ ∈ Artifact.ofPlan p := by
  obtain ⟨p, hp⟩ := Plan.exists_build d
  refine ⟨p, (Collection.ofDiagram name baseUrl d).1, hp, render_of_build hp, Collection.read?_toJson _, ?_, ?_, ?_⟩
  · rw [Plan.folders_of_build hp, List.map_map]
    rfl
  · rw [Plan.folders_of_build hp, List.forall₂_map_left_iff]
    refine List.forall₂_same.2 fun e he => ⟨Folder.calls_ofClass e, Folder.sends_ofClass ?_⟩
    exact NameTable.nodup_attributes d (Plan.attributes_of_build hp e he)
  · intro e he
    have hfiles : ∀ a ∈ Artifact.ofEntity e, a ∈ Artifact.ofPlan p := fun a ha => List.mem_flatMap.2 ⟨e, he, ha⟩
    refine ⟨hfiles _ ?_, hfiles _ ?_⟩ <;> simp [Artifact.ofEntity, Java.renderEntity]

end Classwright
