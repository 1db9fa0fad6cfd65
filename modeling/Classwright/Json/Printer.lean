/-
Writing JSON text in ASCII.

Characters outside ASCII are written as `\uXXXX`, those above U+FFFF as a pair of surrogates; controls are
escaped, by a letter where the format has one. `compact` puts everything on one line without blanks, `spaced` puts a
blank after each colon and comma, `indented` writes one item a line, two blanks deeper than what holds it.
-/
import Classwright.Json.Basic
import Classwright.Number.Decimal
import Classwright.Text.Quoted

namespace Classwright.Json

def unitEscape (n : Nat) : List Char := '\\' :: 'u' :: Text.hexDigits 4 n

/-- one character of a string -/
def escapeChar (c : Char) : List Char :=
  if c = '"' then ['\\', '"']
  else if c = '\\' then ['\\', '\\']
  else if c = '\n' then ['\\', 'n']
  else if c = '\r' then ['\\', 'r']
  else if c = '\t' then ['\\', 't']
  else if c = '\x08' then ['\\', 'b']
  else if c = '\x0c' then ['\\', 'f']
  else if 32 ≤ c.toNat ∧ c.toNat < 127 then [c]
  else if c.toNat < 0x10000 then unitEscape c.toNat
  else
    let n := c.toNat - 0x10000
    unitEscape (0xD800 + n / 0x400) ++ unitEscape (0xDC00 + n % 0x400)

/-- a string between double quotes -/
def encodeString (s : String) : String :=
  String.ofList ('"' :: s.toList.flatMap escapeChar ++ ['"'])

def realText (x : Binary64) : String :=
  match x.value with
  | .nan => "NaN"
  | .infinite neg => if neg then "-Infinity" else "Infinity"
  | .finite .. => x.shortestText

mutual

/-- whether a value keeps to the format, which has no numbers but finite ones -/
def isStandard : Json → Bool
  | .real x => x.isFinite
  | .arr items => areStandard items
  | .obj members => haveStandard members
  | _ => true

def areStandard : List Json → Bool
  | [] => true
  | x :: xs => isStandard x && areStandard xs

def haveStandard : List (String × Json) → Bool
  | [] => true
  | (_, v) :: ms => isStandard v && haveStandard ms

end

/-- the separators of one way of writing: what opens, divides and closes the items at a depth, and what follows a name -/
structure Style where
  afterOpen : Nat → String
  between : Nat → String
  beforeClose : Nat → String
  afterName : String

def newLine (depth : Nat) : String := "\n" ++ String.ofList (List.replicate (2 * depth) ' ')

def compactStyle : Style := ⟨fun _ => "", fun _ => ",", fun _ => "", ":"⟩

def spacedStyle : Style := ⟨fun _ => "", fun _ => ", ", fun _ => "", ": "⟩

def indentedStyle : Style :=
  ⟨fun d => newLine (d + 1), fun d => "," ++ newLine (d + 1), newLine, ": "⟩

mutual

def render (st : Style) (depth : Nat) : Json → String
  | .null => "null"
  | .bool b => if b then "true" else "false"
  | .int n => Int.repr n
  | .real x => realText x
  | .str s => encodeString s
  | .arr [] => "[]"
  | .arr (x :: xs) =>
    "[" ++ st.afterOpen depth ++ render st (depth + 1) x ++ renderItems st depth xs ++ st.beforeClose depth ++ "]"
  | .obj [] => "\x7b\x7d"
  | .obj ((k, v) :: ms) =>
    "\x7b" ++ st.afterOpen depth ++ encodeString k ++ st.afterName ++ render st (depth + 1) v ++
      renderMembers st depth ms ++ st.beforeClose depth ++ "\x7d"

/-- the items after the first -/
def renderItems (st : Style) (depth : Nat) : List Json → String
  | [] => ""
  | x :: xs => st.between depth ++ render st (depth + 1) x ++ renderItems st depth xs

/-- the members after the first -/
def renderMembers (st : Style) (depth : Nat) : List (String × Json) → String
  | [] => ""
  | (k, v) :: ms =>
    st.between depth ++ encodeString k ++ st.afterName ++ render st (depth + 1) v ++ renderMembers st depth ms

end

def compact (j : Json) : String := render compactStyle 0 j

def spaced (j : Json) : String := render spacedStyle 0 j

def indented (j : Json) : String := render indentedStyle 0 j

end Classwright.Json
