/-
Letter case. A letter may have a longer text as its counterpart (`ß` is written `SS`), and a capital sigma is written
`ς` at the end of a word and `σ` elsewhere, so a case mapping takes a letter to a text and looks at its neighbours.

- `lowerChar`, `upperChar`: the mapping of one letter on its own;
- `lower`, `upper`: the mapping of a text;
- `lowerFirst`, `upperFirst`: only the first letter of a text is mapped.
-/
import Classwright.Text.CaseTable

namespace Classwright.Text

/-- the run of a shift table that holds a code point -/
def findShift (runs : List (Nat × Nat × Nat × Int)) (n : Nat) : Option Int :=
  (runs.find? fun r => decide (r.1 ≤ n ∧ n ≤ r.2.1 ∧ (n - r.1) % r.2.2.1 = 0)).map fun r => r.2.2.2

def shiftChar (c : Char) (d : Int) : Char :=
  Char.ofNat (Int.toNat (c.toNat + d))

def inRanges (ranges : List (Nat × Nat)) (c : Char) : Bool :=
  ranges.any fun r => decide (r.1 ≤ c.toNat ∧ c.toNat ≤ r.2)

/-- lower-case form of a letter that stands alone -/
def lowerChar (c : Char) : List Char :=
  if c.toNat < 128 then [c.toLower]
  else if c = 'İ' then ['i', '\u0307']
  else match findShift lowerRuns c.toNat with
    | some d => [shiftChar c d]
    | none => [c]

/-- upper-case form of a letter -/
def upperChar (c : Char) : List Char :=
  if c.toNat < 128 then [c.toUpper]
  else match upperExpansions.find? fun e => e.1 == c.toNat with
    | some e => e.2.map Char.ofNat
    | none => match findShift upperRuns c.toNat with
      | some d => [shiftChar c d]
      | none => [c]

def isCased (c : Char) : Bool := inRanges casedRanges c

def isCaseIgnorable (c : Char) : Bool := inRanges ignorableRanges c

/-- whether the first character that is not skipped is a letter with a case -/
def meetsCased (cs : List Char) : Bool :=
  match cs.dropWhile isCaseIgnorable with
  | [] => false
  | c :: _ => isCased c

/-- a sigma ends a word when a letter stands before it and none after it -/
def sigma (before after : List Char) : Char :=
  if meetsCased before && !meetsCased after then 'ς' else 'σ'

/-- lower-case form of the rest of a text; `before` holds what was read, last character first -/
def lowerAfter (before : List Char) : List Char → List Char
  | [] => []
  | c :: rest =>
    (if c = 'Σ' then [sigma before rest] else lowerChar c) ++ lowerAfter (c :: before) rest

def lower (s : String) : String := String.ofList (lowerAfter [] s.toList)

def upper (s : String) : String := String.ofList (s.toList.flatMap upperChar)

/-- the first letter in lower case, the rest as it is -/
def lowerFirst (s : String) : String :=
  match s.toList with
  | [] => ""
  | c :: rest => String.ofList (lowerChar c ++ rest)

/-- the first letter in upper case, the rest as it is -/
def upperFirst (s : String) : String :=
  match s.toList with
  | [] => ""
  | c :: rest => String.ofList (upperChar c ++ rest)

/-- the first letter in upper case and nothing else -/
def initialUpper (s : String) : String :=
  match s.toList with
  | [] => ""
  | c :: _ => String.ofList (upperChar c)

end Classwright.Text
