/-
Tables of texts.

Each column is as wide as its widest text with a blank on either side. When the columns are wider together than there is
room, the widest are narrowed until they fit, and their texts take several lines.

- `Grid.plain`: rows without lines between them;
- `Grid.framed`: rows in a frame, with a title above and a heading.
-/
import Classwright.Console.Paragraph

namespace Classwright.Console.Grid

/-- a row: the text of each cell -/
abbrev Row := List (List Char)

/-! ## Widths -/

/-- characters that end a line when the width of a text is measured -/
def endsLine (c : Char) : Bool :=
  let n := c.toNat
  n == 10 || decide (28 ≤ n ∧ n ≤ 30) || n == 0x85 || n == 0x2028 || n == 0x2029

def measuredLines (cs : List Char) : List (List Char) :=
  Text.splitChars '\n' (cs.map fun c => if endsLine c then '\n' else c)

/-- blanks beside the text of a cell -/
def padding : Nat := 2

def cellWidth (cs : List Char) : Nat := ((measuredLines cs).map Text.charsCells).foldl max 0 + padding

/-- the widths that the columns would like to have -/
def columnWidths (rows : List Row) : List Nat :=
  rows.foldl (fun ws row => List.zipWithAll (fun w cell =>
    max (w.getD 0) ((cell.map cellWidth).getD 0)) ws row) []

/-- a quotient rounded to the nearest whole number, a half to the even one -/
def roundedQuotient (n d : Nat) : Nat :=
  if 2 * (n % d) < d then n / d
  else if d < 2 * (n % d) then n / d + 1
  else if n / d % 2 = 0 then n / d else n / d + 1

/-- an excess spread evenly over the columns of a width, at most `most` on each; `sharing` such columns are left -/
def spread (widest most : Nat) : Nat → Nat → List Nat → List Nat
  | _, _, [] => []
  | sharing, excess, w :: ws =>
    if w = widest then
      let share := min most (roundedQuotient excess sharing)
      (w - share) :: spread widest most (sharing - 1) (excess - share) ws
    else w :: spread widest most sharing excess ws

/-- the widest columns narrowed, at most to the width of the next -/
def narrowOnce (excess : Nat) (ws : List Nat) : List Nat :=
  let widest := ws.foldl max 0
  let next := (ws.filter (· != widest)).foldl max 0
  spread widest (min excess (widest - next)) (ws.count widest) excess ws

def total (ws : List Nat) : Nat := ws.foldl (· + ·) 0

def narrowTimes (limit : Nat) : Nat → List Nat → List Nat
  | 0, ws => ws
  | fuel + 1, ws => if total ws ≤ limit then ws else narrowTimes limit fuel (narrowOnce (total ws - limit) ws)

/-- columns narrowed until they fit into `limit` cells together; none is wider than that to start with -/
def narrow (limit : Nat) (ws : List Nat) : List Nat :=
  let ws := ws.map (min limit)
  narrowTimes limit (total ws) ws

/-! ## Rows -/

/-- the lines of a cell, each as wide as its column -/
def cellLines (width : Nat) (cs : List Char) : List Line :=
  (Paragraph.layOut .ellipsis (width - padding) cs).map fun l => ' ' :: Text.fitCells (width - padding) l ++ [' ']

/-- the `i`-th line of a cell, blank below its last -/
def lineAt (width i : Nat) (lines : List Line) : Line := (lines[i]?).getD (List.replicate width ' ')

/-- the lines of a row, with what stands left of it, between its cells and right of it -/
def rowLines (left between right : List Char) (ws : List Nat) (row : Row) : List Line :=
  let cells := List.zipWith cellLines ws row
  let height := (cells.map List.length).foldl max 1
  (List.range height).map fun i =>
    left ++ between.intercalate (List.zipWith (fun w c => lineAt w i c) ws cells) ++ right

/-- a line of a frame -/
def rule (left fill between right : Char) (ws : List Nat) : Line :=
  left :: [between].intercalate (ws.map fun w => List.replicate w fill) ++ [right]

/-- a text in the middle of each line of a width -/
def centred (width : Nat) (cs : List Char) : List Line :=
  (Paragraph.layOut .fold width cs).map fun l =>
    let l := Paragraph.trimEnd l
    Text.fitCells width (List.replicate ((width - Text.charsCells l) / 2) ' ' ++ l)

/-- rows without lines between them, on a screen of so many columns -/
def plain (columns : Nat) (rows : List Row) : List Line :=
  let ws := narrow columns (columnWidths rows)
  rows.flatMap (rowLines [] [] [] ws)

/-- a titled table in a frame, its first row a heading -/
def framed (columns : Nat) (title : List Char) (heading : Row) (rows : List Row) : List Line :=
  let bars := heading.length + 1
  let ws := narrow (columns - bars) (columnWidths (heading :: rows))
  centred (total ws + bars) title ++ rule '┏' '━' '┳' '┓' ws :: rowLines ['┃'] ['┃'] ['┃'] ws heading ++
    rule '┡' '━' '╇' '┩' ws :: rows.flatMap (rowLines ['│'] ['│'] ['│'] ws) ++ [rule '└' '─' '┴' '┘' ws]

end Classwright.Console.Grid
