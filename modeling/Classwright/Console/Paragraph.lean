/-
Texts laid out in lines of a limited width.

Lines are broken before words; a word that is wider than a line is cut into pieces that fill lines, or loses its end,
as the caller chooses. Blanks that reach beyond the width at the end of a line are dropped, and tabulators go to the next
multiple of eight cells.

- `Overflow`: what becomes of a word that is wider than a line;
- `layOut`: a text as lines.
-/
import Classwright.Text.Basic
import Classwright.Text.Cells

namespace Classwright.Console

inductive Overflow where
  /-- cut into pieces that fill lines -/
  | fold
  /-- shortened, with an ellipsis at its end -/
  | ellipsis
  deriving DecidableEq, Repr

abbrev Line := List Char

namespace Paragraph

/-- a word: blanks, other characters, blanks -/
def firstWord (cs : List Char) : Line × List Char :=
  let lead := cs.takeWhile Text.isBlank
  let afterLead := cs.drop lead.length
  let core := afterLead.takeWhile fun c => !Text.isBlank c
  let afterCore := afterLead.drop core.length
  let trail := afterCore.takeWhile Text.isBlank
  (lead ++ core ++ trail, afterCore.drop trail.length)

/-- the words of a text, each with the blanks that follow it; a text of blanks is one word -/
def wordsOf : Nat → List Char → List Line
  | 0, _ => []
  | _ + 1, [] => []
  | fuel + 1, cs => (firstWord cs).1 :: wordsOf fuel (firstWord cs).2

def words (cs : List Char) : List Line := wordsOf cs.length cs

def trimEnd (cs : List Char) : List Char := (cs.reverse.dropWhile Text.isBlank).reverse

/-- lines that are full, and the line being filled with the number of its cells -/
structure Filling where
  full : List Line := []
  line : Line := []
  used : Nat := 0

namespace Filling

/-- the line being filled ends, unless it is empty -/
def endLine (f : Filling) : Filling := if f.line.isEmpty then f else ⟨f.full ++ [f.line], [], 0⟩

def add (f : Filling) (word : Line) : Filling := { f with line := f.line ++ word, used := f.used + Text.charsCells word }

/-- the last of some pieces is filled up further, the others are lines -/
def addPieces (f : Filling) : List Line → Filling
  | [] => f
  | [piece] => f.add piece
  | piece :: rest => addPieces (f.add piece).endLine rest

def place (o : Overflow) (width : Nat) (f : Filling) (word : Line) : Filling :=
  let room := Text.charsCells (trimEnd word)
  if f.used + room ≤ width then f.add word
  else if room ≤ width then f.endLine.add word
  else match o with
    | .fold => f.endLine.addPieces (Text.chop width word)
    | .ellipsis => f.endLine.add word

def lines (f : Filling) : List Line := f.full ++ [f.line]

end Filling

/-- one line of a text broken before its words -/
def fill (o : Overflow) (width : Nat) (cs : List Char) : List Line :=
  if cs.all Text.isBlank then [cs] else ((words cs).foldl (Filling.place o width) {}).lines

/-- blanks at the end dropped as far as they reach beyond the width -/
def dropExcess (width : Nat) (line : Line) : Line :=
  let blanks := line.length - (trimEnd line).length
  line.take (line.length - min blanks (line.length - width))

def shorten (o : Overflow) (width : Nat) (line : Line) : Line :=
  if Text.charsCells line ≤ width then line
  else match o with
    | .fold => Text.fitCells width line
    | .ellipsis => Text.fitCells (width - 1) line ++ ['…']

def tabWidth : Nat := 8

/-- tabulators as blanks up to the next multiple of the tabulator width; `used` cells are taken before -/
def expandTabs (used : Nat) : List Char → List Char
  | [] => []
  | '\t' :: cs =>
    let next := (used / tabWidth + 1) * tabWidth
    List.replicate (next - used) ' ' ++ expandTabs next cs
  | c :: cs => c :: expandTabs (used + Text.charCells c) cs

/-- a text as lines of at most `width` cells -/
def layOut (o : Overflow) (width : Nat) (cs : List Char) : List Line :=
  (Text.splitChars '\n' cs).flatMap fun line =>
    (fill o width (expandTabs 0 line)).map fun l => shorten o width (dropExcess width l)

end Paragraph

end Classwright.Console
