/-
Values shown in messages and names. A text on its own is shown as it is, every other value in its literal form: absent
values as `None`, truth values as `True` and `False`, texts inside lists and objects between quotes.
-/
import Classwright.Json.Basic
import Classwright.Number.Decimal
import Classwright.Text.Quoted

namespace Classwright.Json

mutual

/-- the literal form of a value -/
def literal : Json → String
  | .null => "None"
  | .bool b => if b then "True" else "False"
  | .int n => Int.repr n
  | .real x => x.shortestText
  | .str s => Text.quoted s
  | .arr [] => "[]"
  | .arr (x :: xs) => "[" ++ literal x ++ literalItems xs ++ "]"
  | .obj [] => "\x7b\x7d"
  | .obj ((k, v) :: ms) => "\x7b" ++ Text.quoted k ++ ": " ++ literal v ++ literalMembers ms ++ "\x7d"

def literalItems : List Json → String
  | [] => ""
  | x :: xs => ", " ++ literal x ++ literalItems xs

def literalMembers : List (String × Json) → String
  | [] => ""
  | (k, v) :: ms => ", " ++ Text.quoted k ++ ": " ++ literal v ++ literalMembers ms

end

/-- a value as it stands in a message -/
def display : Json → String
  | .str s => s
  | j => literal j

end Classwright.Json
