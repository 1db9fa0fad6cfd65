/-
What the program tells its user: lines and tables of marked-up text, laid out for a terminal of a number of columns.

`printAll` prints notices one after the other and stops before the first whose tags do not match.
-/
import Classwright.Console.Grid
import Classwright.Console.Markup

namespace Classwright.Console

inductive Notice where
  | line (text : String)
  /-- names with their values -/
  | facts (rows : List (String × String))
  /-- the places of problems with what is wrong there -/
  | problems (rows : List (String × String))
  deriving DecidableEq, Repr

namespace Notice

/-- a text of one colour -/
def coloured (colour text : String) : Notice := .line ("[" ++ colour ++ "]" ++ text ++ "[/" ++ colour ++ "]")

def warning (text : String) : Notice := coloured "yellow" ("! " ++ text)

def failure (text : String) : Notice := coloured "red" ("✗ " ++ text)

def success (text : String) : Notice := coloured "green" ("✓ " ++ text)

/-- the rows of a table without their tags -/
def shownRows (rows : List (String × String)) : Except Unmatched (List Grid.Row) :=
  rows.mapM fun r => do pure [← Markup.shown r.1, ← Markup.shown r.2]

def lines (columns : Nat) : Notice → Except Unmatched (List Line)
  | .line text => do pure (Paragraph.layOut .fold columns (← Markup.shown text))
  | .facts rows => do pure (Grid.plain columns (← shownRows rows))
  | .problems rows => do
    pure (Grid.framed columns "Invalid diagram model".toList ["Location".toList, "Problem".toList] (← shownRows rows))

def print (columns : Nat) (n : Notice) : Except Unmatched String :=
  (n.lines columns).map fun ls => ls.foldl (fun s l => s ++ String.ofList l ++ "\n") ""

/-- notices printed up to the first that cannot be -/
def printAll (columns : Nat) : List Notice → String × Option Unmatched
  | [] => ("", none)
  | n :: rest =>
    match n.print columns with
    | .error u => ("", some u)
    | .ok s => (s ++ (printAll columns rest).1, (printAll columns rest).2)

end Notice

end Classwright.Console
