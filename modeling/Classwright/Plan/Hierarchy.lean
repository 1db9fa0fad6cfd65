/-
Parents and children. A class has at most one parent; `parentOf` and `children` record the same relation from both ends.

- `Hierarchy.adopt`: a child under a parent, taken from its earlier parent when it had one;
- `Hierarchy.place`: the place of a class, or none when it is in no hierarchy;
- `Hierarchy.collisions`: siblings whose discriminators are equal.
-/
import Classwright.Entity.Basic
import Classwright.NameTable

namespace Classwright

structure Hierarchy where
  /-- children with their parents -/
  parentOf : List (String × String) := []
  /-- parents with their children; a parent that lost every child keeps its place with an empty list -/
  children : List (String × List String) := []
  deriving Repr

namespace Hierarchy

def parent? (h : Hierarchy) (child : String) : Option String := Table.get? h.parentOf child

def childrenOf (h : Hierarchy) (parent : String) : List String := (Table.get? h.children parent).getD []

/-- the child no longer stands under the parent -/
def release (h : Hierarchy) (parent child : String) : Hierarchy :=
  { h with children := Table.set h.children parent ((h.childrenOf parent).erase child) }

/-- the child stands under the parent, behind the children that are there -/
def attach (h : Hierarchy) (parent child : String) : Hierarchy :=
  { parentOf := Table.set h.parentOf child parent
    children := Table.set h.children parent (h.childrenOf parent ++ [child]) }

/-- a child under a parent, taken from its earlier parent when it had one -/
def adopt (h : Hierarchy) (parent child : String) : Hierarchy :=
  match h.parent? child with
  | none => h.attach parent child
  | some previous => if previous = parent then h else (h.release previous child).attach parent child

def isParent (h : Hierarchy) (name : String) : Bool := !(h.childrenOf name).isEmpty

def isChild (h : Hierarchy) (name : String) : Bool := (h.parent? name).isSome

/-- the place of a class in its hierarchy -/
def place (h : Hierarchy) (name : String) : Option Inheritance :=
  if h.isParent name || h.isChild name then
    some ⟨h.isParent name, h.isChild name, h.parent? name, some (Naming.discriminator name)⟩
  else none

/-- warnings about siblings that share a discriminator; `seen` holds the first sibling of each -/
def siblingCollisions (parent : String) (seen : List (String × String)) : List String → Log
  | [] => []
  | child :: rest =>
    let value := Naming.discriminator child
    match Table.get? seen value with
    | some first =>
      LogEntry.warning ("[Inheritance] " ++ child ++ " and " ++ first ++ " under " ++ parent ++
        " share discriminator value '" ++ value ++ "'") :: siblingCollisions parent seen rest
    | none => siblingCollisions parent (Table.set seen value child) rest

def collisions (h : Hierarchy) : Log := h.children.flatMap fun p => siblingCollisions p.1 [] p.2

end Hierarchy

end Classwright
