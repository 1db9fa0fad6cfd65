/-
The plan of a project: the entities of a diagram and the number of edges that came to nothing.

Inheritance edges are taken first, so that every class knows its place before it gets fields; the other edges follow in
their order, which fixes the suffixes of their names. A conflict ends the work at once.
-/
import Classwright.Plan.Session

namespace Classwright

structure Plan where
  entities : List Entity
  dropped : Nat
  deriving Repr

namespace Plan

/-- the number of classes whose key is composite -/
def identityCount (p : Plan) : Nat := (p.entities.filter fun e => e.identity.isSome).length

/-- a session on its way through the edges -/
structure Progress where
  session : Session
  dropped : Nat := 0
  log : Log := []

/-- one more call; an edge that was not taken is counted -/
def Progress.take (p : Progress) (c : Call) : Except Conflict Progress :=
  let r := p.session.step c
  match r.result with
  | .error conflict => .error conflict
  | .ok answer => .ok ⟨r.session, if answer = some false then p.dropped + 1 else p.dropped, p.log ++ r.log⟩

def Progress.takeAll (p : Progress) (cs : List Call) : Except Conflict Progress := cs.foldlM Progress.take p

/-- what was said on the way through calls, the last word being that of the call that is refused -/
def Progress.said (p : Progress) : List Call → Log
  | [] => p.log
  | c :: rest =>
    match p.take c with
    | .ok next => next.said rest
    | .error _ => p.log ++ (p.session.step c).log

def isInheritance (e : Edge) : Bool := e.kind == .inheritance

/-- the call that handles an edge outside hierarchies -/
def fieldCall (e : Edge) : Call := if e.kind = .composition then .compose e else .relate e

/-- the calls for the edges of a diagram, in the order in which they are made -/
def calls (edges : List Edge) : List Call :=
  (edges.filter isInheritance).map .inherit ++ [.apply] ++
    (edges.filter fun e => !isInheritance e).map fieldCall

/-- a session for a diagram, with the log of its name table -/
def begin (policy : Policy) (d : Diagram) : Progress :=
  let t := NameTable.ofDiagram d
  { session := Session.start t.1 policy, log := t.2 }

def run (policy : Policy) (d : Diagram) : Except Conflict Progress := (begin policy d).takeAll (calls d.edges)

/-- the log of the work on a diagram, whether or not a conflict ends it -/
def log (policy : Policy) (d : Diagram) : Log := (begin policy d).said (calls d.edges)

def ofProgress (p : Progress) : Plan := ⟨p.session.entities, p.dropped⟩

/-- the plan of a diagram -/
def build (policy : Policy) (d : Diagram) : Except Conflict Plan :=
  match run policy d with
  | .error c => .error c
  | .ok p => .ok (ofProgress p)

end Plan

end Classwright
