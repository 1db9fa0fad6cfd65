/-
The room that texts take on a terminal, counted in cells.

- `charCells`, `cells`: the cells of a character and of a text;
- `cutToCells`: the start of a text that fills a number of cells;
- `chop`: a text in pieces that each fit into a number of cells.

`flatten_chop` says that chopping loses nothing.
-/
import Classwright.Text.Case
import Classwright.Text.CellTable

namespace Classwright.Text

def charCells (c : Char) : Nat :=
  if 32 ≤ c.toNat ∧ c.toNat < 127 then 1
  else if inRanges emptyRanges c then 0
  else if inRanges wideRanges c then 2
  else 1

def charsCells (cs : List Char) : Nat := cs.foldl (fun n c => n + charCells c) 0

def cells (s : String) : Nat := charsCells s.toList

/-- the start of a text that fills `n` cells; a character that would reach beyond them leaves a blank -/
def cutToCells : Nat → List Char → List Char
  | _, [] => []
  | n, c :: cs =>
    if charCells c ≤ n then c :: cutToCells (n - charCells c) cs
    else if n = 0 then []
    else [' ']

/-- a text filled up with blanks, or cut, to a number of cells -/
def fitCells (n : Nat) (cs : List Char) : List Char :=
  if n < charsCells cs then cutToCells n cs else cs ++ List.replicate (n - charsCells cs) ' '

/-- a text in pieces of at most `n` cells. `used` cells are taken by `piece`, the piece being filled -/
def chopFrom (n : Nat) (piece : List Char) (used : Nat) : List Char → List (List Char)
  | [] => [piece]
  | c :: cs =>
    if n < used + charCells c then piece :: chopFrom n [c] (charCells c) cs
    else chopFrom n (piece ++ [c]) (used + charCells c) cs

def chop (n : Nat) (cs : List Char) : List (List Char) := chopFrom n [] 0 cs

theorem flatten_chopFrom (n : Nat) (piece : List Char) (used : Nat) (cs : List Char) :
    (chopFrom n piece used cs).flatten = piece ++ cs := by
  induction cs generalizing piece used with
  | nil => simp [chopFrom]
  | cons c cs ih =>
    rw [chopFrom]
    split <;> simp [ih]

theorem flatten_chop (n : Nat) (cs : List Char) : (chop n cs).flatten = cs := flatten_chopFrom n [] 0 cs

end Classwright.Text
