/-
Relative and absolute paths as lists of names.

Joining takes the second path as it is when it is absolute. Empty names and `.` vanish, `..` stays: what it leads to is
known only to a file system, which `Path.resolve` stands for when no links are in the way.
-/
import Classwright.Text.Basic

namespace Classwright

structure Path where
  /-- empty for a relative path; a slash, or two slashes that are told apart from one -/
  root : String := ""
  parts : List String := []
  deriving DecidableEq, Repr

namespace Path

/-- the names of a path: what stands between slashes, without empty names and single dots -/
def names (cs : List Char) : List String :=
  ((Text.splitChars '/' cs).filter fun n => n ≠ [] ∧ n ≠ ['.']).map String.ofList

/-- the root that leading slashes stand for: exactly two are kept as they are -/
def rootOf : List Char → String
  | '/' :: '/' :: '/' :: _ => "/"
  | '/' :: '/' :: _ => "//"
  | '/' :: _ => "/"
  | _ => ""

def ofString (s : String) : Path := ⟨rootOf s.toList, names s.toList⟩

def isAbsolute (p : Path) : Bool := !p.root.isEmpty

/-- the second path seen from the first -/
def join (a b : Path) : Path := if b.isAbsolute then b else ⟨a.root, a.parts ++ b.parts⟩

/-- a path with one more part, read as a path of its own -/
def child (p : Path) (s : String) : Path := p.join (ofString s)

def toString (p : Path) : String :=
  let s := p.root ++ Text.joinWith "/" p.parts
  if s.isEmpty then "." else s

/-- the text written as a path would print it -/
def normal (s : String) : String := (ofString s).toString

/-- one name followed: up for `..`, which stays at the top, and down for every other name -/
def walk (here : List String) (name : String) : List String :=
  if name = ".." then here.dropLast else here ++ [name]

/-- the place a list of names leads to from a directory, no links being in the way -/
def resolve (start : List String) (parts : List String) : List String := parts.foldl walk start

/-- order of paths name by name -/
def precedes : List String → List String → Bool
  | [], _ => true
  | _ :: _, [] => false
  | a :: as, b :: bs => if a = b then precedes as bs else Text.precedes a b

end Path

end Classwright
