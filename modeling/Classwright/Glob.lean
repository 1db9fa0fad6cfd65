/-
Shell patterns for names: `*` stands for any characters, `?` for one, and a set between square brackets for one of its
characters, or for one outside it when `!` comes first. A bracket that is never closed stands for itself.

- `Glob.parse`, `Glob.fits`: a pattern read, and whether a name fits it;
- `Glob.select`: what a pattern with several parts finds on a disk. A part `**` stands for any directories.
-/
import Classwright.Disk.Basic

namespace Classwright.Glob

inductive Piece where
  | char (c : Char)
  | any
  | star
  /-- one character in, or outside, ranges that include their ends -/
  | range (outside : Bool) (ranges : List (Char × Char))
  deriving DecidableEq, Repr

def Piece.accepts : Piece → Char → Bool
  | .char c, x => x == c
  | .any, _ => true
  | .star, _ => true
  | .range outside ranges, x => (ranges.any fun r => decide (r.1 ≤ x ∧ x ≤ r.2)) != outside

def covers : List Piece → List Char → Bool
  | [], cs => cs.isEmpty
  | .star :: ps, [] => covers ps []
  | .star :: ps, c :: cs => covers ps (c :: cs) || covers (.star :: ps) cs
  | _ :: _, [] => false
  | p :: ps, c :: cs => p.accepts c && covers ps cs
termination_by ps cs => (ps.length, cs.length)

/-! ## Sets -/

/-- a set cut at the hyphens that make ranges: each lies behind at least `skip` characters of its piece -/
def chunks (skip : Nat) (piece : List Char) : List Char → List (List Char)
  | [] => [piece.reverse]
  | c :: cs =>
    if c = '-' ∧ skip = 0 then piece.reverse :: chunks 2 [] cs
    else chunks (skip - 1) (c :: piece) cs

/-- a hyphen at the very end of a set makes no range -/
def closeChunks : List (List Char) → List (List Char)
  | [a, []] => [a ++ ['-']]
  | a :: rest => a :: closeChunks rest
  | [] => []

/-- ranges whose ends are the wrong way round vanish with their ends -/
def dropEmpty : List (List Char) → List (List Char)
  | [] => []
  | a :: rest =>
    match dropEmpty rest with
    | [] => [a]
    | b :: more =>
      match a.getLast?, b.head? with
      | some x, some y => if y < x then (a.dropLast ++ b.drop 1) :: more else a :: b :: more
      | _, _ => a :: b :: more

def singles (cs : List Char) : List (Char × Char) := cs.map fun c => (c, c)

/-- the characters of chunks, with the ranges between neighbours -/
def ranges : List (List Char) → List (Char × Char)
  | [] => []
  | [a] => singles a
  | a :: b :: rest =>
    let between := match a.getLast?, b.head? with
      | some x, some y => [(x, y)]
      | _, _ => []
    singles a ++ between ++ ranges (b :: rest)

/-- what stands between brackets -/
def readSet (cs : List Char) : Piece :=
  let skip := if cs.head? = some '!' then 2 else 1
  match dropEmpty (closeChunks (chunks skip [] cs)) with
  | ('!' :: a) :: rest => if a.isEmpty && rest.isEmpty then .any else .range true (ranges (a :: rest))
  | cut => .range false (ranges cut)

/-- the end of a set: the first closing bracket that is not its first character -/
def setLength? (cs : List Char) : Option Nat :=
  let start := if cs.head? = some '!' then 1 else 0
  let start := if (cs.drop start).head? = some ']' then start + 1 else start
  let inside := (cs.drop start).takeWhile (· != ']')
  if start + inside.length < cs.length then some (start + inside.length) else none

def readPieces : Nat → List Char → List Piece
  | 0, _ => []
  | _ + 1, [] => []
  | fuel + 1, c :: cs =>
    if c = '*' then .star :: readPieces fuel cs
    else if c = '?' then .any :: readPieces fuel cs
    else if c = '[' then
      match setLength? cs with
      | some n => readSet (cs.take n) :: readPieces fuel (cs.drop (n + 1))
      | none => .char '[' :: readPieces fuel cs
    else .char c :: readPieces fuel cs

def parse (pattern : String) : List Piece := readPieces pattern.length pattern.toList

/-- whether a name fits a pattern -/
def fits (pattern name : String) : Bool := covers (parse pattern) name.toList

/-! ## On a disk -/

def hasPieces (pattern : String) : Bool := pattern.toList.any fun c => c == '*' || c == '?' || c == '['

/-- directories beneath a place, the place itself first, with their names seen from there -/
def directories (d : Disk) (p : Place) : List (List String) :=
  [] :: ((d.under p).filter fun i => i.2.isDir).map Prod.fst

/-- what the parts of a pattern find beneath a place, with its names seen from there -/
def select (d : Disk) (p : Place) : List String → List (List String)
  | [] => [[]]
  | part :: rest =>
    let deeper := fun (names : List String) (q : Place) => (select d q rest).map (names ++ ·)
    let wanted := fun (q : Place) => rest.isEmpty || (d.get? q).any Entry.isDir
    if part = "**" then
      Text.distinct ((directories d p).flatMap fun names => deeper names (p ++ names))
    else if hasPieces part then
      ((d.namesIn p).filter fun n => fits part n && wanted (p ++ [n])).flatMap fun n => deeper [n] (p ++ [n])
    else
      let q := if part = ".." then p.dropLast else p ++ [part]
      if d.hasEntry q && wanted q then deeper [part] q else []

/-- whether a part mixes `**` with other characters -/
def isMalformed (part : String) : Bool :=
  decide (part ≠ "**") && (Text.replaceAll "**" "" part != part)

end Classwright.Glob
