/-
Working through the edges of a diagram one at a time.

A `Session` holds the entities built so far, the hierarchy, and the numbering of relationships. A `Call` handles one edge
under one of three readings, or writes the hierarchy into the entities; `Session.step` answers with what came of it: the
new session, whether the edge was taken, and the log. A refused edge leaves the session as it was.

- `inherit`: parent and child from an inheritance edge;
- `compose`: a whole with its part; the part's earlier whole loses its claim on the part's identity;
- `relate`: the fields of any other edge, through an association class when it names one that exists;
- `apply`: the place of every class in its hierarchy.
-/
import Classwright.Plan.Hierarchy
import Classwright.Plan.Numbering
import Classwright.Plan.Relationship

namespace Classwright

/-- what happens when a class is claimed twice -/
inductive Policy where
  | lastWins
  | fail
  deriving DecidableEq, Repr

/-- every word but `fail` lets the last claim win -/
def Policy.ofText (s : String) : Policy := if s = "fail" then .fail else .lastWins

inductive ClaimKind where
  | inheritance
  | composition
  deriving DecidableEq, Repr

def ClaimKind.tag : ClaimKind → String
  | .inheritance => "inheritance"
  | .composition => "composition"

/-- a class claimed by a second parent or a second whole -/
structure Conflict where
  kind : ClaimKind
  className : String
  previous : String
  current : String
  deriving DecidableEq, Repr

structure Session where
  names : NameTable
  policy : Policy
  entities : List Entity
  hierarchy : Hierarchy := {}
  numbering : Numbering := {}
  deriving Repr

inductive Call where
  | inherit (e : Edge)
  | compose (e : Edge)
  | relate (e : Edge)
  | apply

/-- what came of a call: a conflict, or whether the edge was taken (nothing for `apply`) -/
structure Reply where
  result : Except Conflict (Option Bool)
  session : Session
  log : Log

namespace Session

/-- the entities of a name table, with no fields yet -/
def start (names : NameTable) (policy : Policy) : Session where
  names := names
  policy := policy
  entities := names.classes.map fun c => {
    name := c.1
    attributes := c.2
    isAssociationClass := names.associationClasses.contains c.1 }

def entity? (s : Session) (name : String) : Option Entity := s.entities.find? fun e => e.name == name

/-- one entity changed, the others as they are -/
def modify (s : Session) (name : String) (f : Entity → Entity) : Session :=
  { s with entities := s.entities.map fun e => if e.name = name then f e else e }

def place (s : Session) (p : Placed) : Session := s.modify p.owner (Entity.addField p.field)

def placeAll (s : Session) (ps : List Placed) : Session := ps.foldl place s

def advance (s : Session) (a b : String) : Session := { s with numbering := s.numbering.advance a b }

/-- the ends of an edge, when both are classes with a name -/
def ends? (s : Session) (e : Edge) : Option (String × String) :=
  match s.names.named? e.source, s.names.named? e.target with
  | some a, some b => some (a, b)
  | _, _ => none

/-- the id of an edge in a message -/
def shownId (e : Edge) : String := if e.id.isEmpty then "?" else e.id

def taken (s : Session) (log : Log) : Reply := ⟨.ok (some true), s, log⟩

def dropped (s : Session) (log : Log) : Reply := ⟨.ok (some false), s, log⟩

def unresolved (s : Session) (who : String) (e : Edge) : Reply :=
  s.dropped [LogEntry.debug ("[" ++ who ++ "] Dropping edge " ++ shownId e ++ ": unresolved endpoint")]

/-! ## Inheritance -/

def inherit (s : Session) (e : Edge) : Reply :=
  match s.ends? e with
  | none => s.unresolved "Inheritance" e
  | some (parent, child) =>
    if parent = child then
      s.dropped [LogEntry.warning ("[Inheritance] Ignoring self-inheritance on " ++ parent)]
    else
      let next : Session := { s with hierarchy := s.hierarchy.adopt parent child }
      match s.hierarchy.parent? child with
      | none => next.taken []
      | some previous =>
        if previous = parent then s.taken []
        else match s.policy with
          | .fail => ⟨.error ⟨.inheritance, child, previous, parent⟩, s, []⟩
          | .lastWins =>
            next.taken [LogEntry.warning ("[Inheritance] " ++ child ++ " already extends " ++ previous ++ "; " ++
              parent ++ " replaces it")]

/-- the place of every class that is in a hierarchy; a class that is in none keeps what it had -/
def apply (s : Session) : Reply :=
  let placed := fun (e : Entity) => match s.hierarchy.place e.name with
    | some i => { e with inheritance := some i }
    | none => e
  ⟨.ok none, { s with entities := s.entities.map placed }, s.hierarchy.collisions⟩

/-! ## Composition -/

/-- the type of a part's own key: that of its `id` attribute when that has a written type -/
def ownIdType (s : Session) (part : String) : String :=
  match (s.names.attributesOf part).find? fun a => a.name == "id" && !a.rawType.isEmpty with
  | some a => Naming.javaType a.type
  | none => "Long"

/-- a part without its identity: the fields to earlier wholes stay as plain required keys -/
def releaseIdentity (e : Entity) : Entity :=
  { e with
    fields := e.fields.map fun f => if (given? f.mapsId).isSome then { f with mapsId := none } else f
    identity := none }

/-- the key of a part under a whole -/
def identityOf (s : Session) (whole part suffix : String) : CompositeIdentity :=
  ⟨part ++ "Id", whole, Relationship.wholeField whole suffix, s.ownIdType part, "Long"⟩

/-- the relationship of a whole and a part that has no identity -/
def bind (s : Session) (whole part : String) : Session :=
  let suffix := s.numbering.nextSuffix whole part
  let s := s.advance whole part
  let identified := s.modify part fun e => { e with identity := some (s.identityOf whole part suffix) }
  identified.placeAll (Relationship.composition whole part suffix)

def compose (s : Session) (e : Edge) : Reply :=
  match s.ends? e with
  | none => s.unresolved "Composition" e
  | some (whole, part) =>
    match (s.entity? part).bind Entity.identity with
    | none => (s.bind whole part).taken []
    | some held =>
      match s.policy with
      | .fail => ⟨.error ⟨.composition, part, held.wholeClass, whole⟩, s, []⟩
      | .lastWins =>
        ((s.modify part releaseIdentity).bind whole part).taken
          [LogEntry.warning ("[Composition] " ++ part ++ " is already part of " ++ held.wholeClass ++
            "; its identity now derives from " ++ whole)]

/-! ## Other relationships -/

/-- a relationship of one end and an association class -/
def joinClass (s : Session) (endpoint assoc : String) : Session :=
  let suffix := s.numbering.nextSuffix endpoint assoc
  (s.advance endpoint assoc).placeAll (Relationship.viaClass endpoint assoc suffix)

/-- a relationship by its cardinalities -/
def join (s : Session) (source target : String) (sourceMany targetMany : Bool) : Session :=
  let suffix := s.numbering.nextSuffix source target
  (s.advance source target).placeAll (Relationship.byCardinality source target suffix sourceMany targetMany)

def joinEdge (s : Session) (e : Edge) (source target : String) : Session :=
  s.join source target (Naming.isMany e.sourceCardinality) (Naming.isMany e.targetCardinality)

def relate (s : Session) (e : Edge) : Reply :=
  match e.kind with
  | .inheritance | .composition => s.dropped []
  | kind =>
    match s.ends? e with
    | none => s.unresolved "Classifier" e
    | some (source, target) =>
      match given? kind.associationClassId with
      | none => (s.joinEdge e source target).taken []
      | some id =>
        match s.names.named? id with
        | some assoc => ((s.joinClass source assoc).joinClass target assoc).taken []
        | none =>
          (s.joinEdge e source target).taken
            [LogEntry.debug ("[Classifier] Edge " ++ shownId e ++ " names unknown association class " ++ id ++
              "; classifying by cardinality")]

def step (s : Session) : Call → Reply
  | .inherit e => s.inherit e
  | .compose e => s.compose e
  | .relate e => s.relate e
  | .apply => s.apply

end Session

end Classwright
