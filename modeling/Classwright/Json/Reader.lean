/-
Reading JSON text.

`parse` takes a whole text. Blanks are the four of the format; whole numbers stay exact; `NaN`, `Infinity` and
`-Infinity` are accepted; of equal names in an object the last value counts. A refused text gives the cause and the
index of the character at which it was noticed.

Every function returns what is left to read, and a failure holds what was left at the place it names, so the index is
the length of the text less the length of that rest. `fuel` bounds the nesting and the number of steps; `parse` starts
with more than any text of that length needs: no step is taken twice at one character without going deeper.
-/
import Classwright.Json.Basic
import Classwright.Text.Basic

namespace Classwright.Json

/-- why a text is no JSON -/
inductive Cause where
  | value
  | name
  | colon
  | comma
  | unterminated
  | control
  | escape
  | codePoint
  | extra
  | byteOrderMark
  deriving DecidableEq, Repr

def Cause.message : Cause → String
  | .value => "Expecting value"
  | .name => "Expecting property name enclosed in double quotes"
  | .colon => "Expecting ':' delimiter"
  | .comma => "Expecting ',' delimiter"
  | .unterminated => "Unterminated string starting at"
  | .control => "Invalid control character at"
  | .escape => "Invalid \\escape"
  | .codePoint => "Invalid \\uXXXX escape"
  | .extra => "Extra data"
  | .byteOrderMark => "Unexpected UTF-8 BOM (decode using utf-8-sig)"

/-- a failure with the characters that were left where it was noticed -/
structure Failure where
  cause : Cause
  left : List Char
  deriving DecidableEq, Repr

/-- a refused text: the cause and the index of the character -/
structure ReadError where
  cause : Cause
  position : Nat
  deriving DecidableEq, Repr

def isSpace (c : Char) : Bool := c == ' ' || c == '\t' || c == '\n' || c == '\r'

def skipSpace (cs : List Char) : List Char := cs.dropWhile isSpace

def hexValue? (c : Char) : Option Nat :=
  if c.isDigit then some (c.toNat - 48)
  else if 'a' ≤ c ∧ c ≤ 'f' then some (c.toNat - 87)
  else if 'A' ≤ c ∧ c ≤ 'F' then some (c.toNat - 55)
  else none

def hexNumber? : List Char → Option Nat
  | [a, b, c, d] => do
    let a ← hexValue? a
    let b ← hexValue? b
    let c ← hexValue? c
    let d ← hexValue? d
    pure (((a * 16 + b) * 16 + c) * 16 + d)
  | _ => none

def isHigh (n : Nat) : Bool := decide (0xD800 ≤ n ∧ n < 0xDC00)

def isLow (n : Nat) : Bool := decide (0xDC00 ≤ n ∧ n < 0xE000)

/-- the code point of a pair of surrogates -/
def joinPair (high low : Nat) : Nat := 0x10000 + (high - 0xD800) * 0x400 + (low - 0xDC00)

/-- the second half of a pair of surrogates, when it stands next -/
def lowHalf? (cs : List Char) : Option (Nat × List Char) :=
  match cs with
  | '\\' :: 'u' :: rest =>
    match hexNumber? (rest.take 4) with
    | some n => if isLow n then some (n, rest.drop 4) else none
    | none => none
  | _ => none

/-- the character of a one-letter escape -/
def letterEscape? (c : Char) : Option Char :=
  if c = '"' || c = '\\' || c = '/' then some c
  else if c = 'b' then some '\x08'
  else if c = 'f' then some '\x0c'
  else if c = 'n' then some '\n'
  else if c = 'r' then some '\r'
  else if c = 't' then some '\t'
  else none

/-- the rest of a string after its opening quote; `opened` is the text from that quote on -/
def readString (opened : List Char) : Nat → List Char → Except Failure (List Char × List Char)
  | 0, cs => .error ⟨.unterminated, cs⟩
  | _ + 1, [] => .error ⟨.unterminated, opened⟩
  | fuel + 1, c :: rest =>
    if c = '"' then .ok ([], rest)
    else if c = '\\' then
      match rest with
      | [] => .error ⟨.unterminated, opened⟩
      | 'u' :: digits =>
        if (digits.take 5).length < 5 then .error ⟨.codePoint, rest⟩
        else match hexNumber? (digits.take 4) with
          | none => .error ⟨.codePoint, rest⟩
          | some n =>
            let after := digits.drop 4
            match (if isHigh n then lowHalf? after else none) with
            | some (low, after) => do
              let (s, left) ← readString opened fuel after
              pure (Char.ofNat (joinPair n low) :: s, left)
            | none => do
              let (s, left) ← readString opened fuel after
              pure ((if isHigh n || isLow n then '\uFFFD' else Char.ofNat n) :: s, left)
      | e :: after =>
        match letterEscape? e with
        | none => .error ⟨.escape, c :: rest⟩
        | some x => do
          let (s, left) ← readString opened fuel after
          pure (x :: s, left)
    else if c.toNat < 32 then .error ⟨.control, c :: rest⟩
    else do
      let (s, left) ← readString opened fuel rest
      pure (c :: s, left)

def digitsValue (cs : List Char) : Nat := cs.foldl (fun n c => n * 10 + (c.toNat - 48)) 0

/-- the digits at the front of a text -/
def spanDigits (cs : List Char) : List Char × List Char := (cs.takeWhile Char.isDigit, cs.dropWhile Char.isDigit)

/-- a fractional part: a point and at least one digit -/
def fraction? (cs : List Char) : Option (List Char × List Char) :=
  match cs with
  | '.' :: rest => if (spanDigits rest).1.isEmpty then none else some (spanDigits rest)
  | _ => none

/-- an exponent: its mark, perhaps a sign, and at least one digit -/
def exponent? (cs : List Char) : Option (Int × List Char) :=
  match cs with
  | [] => none
  | e :: rest =>
    if e = 'e' || e = 'E' then
      let (neg, rest) := match rest with
        | '-' :: r => (true, r)
        | '+' :: r => (false, r)
        | r => (false, r)
      let (ds, left) := spanDigits rest
      if ds.isEmpty then none else some (Binary64.signed neg (digitsValue ds), left)
    else none

/-- the number at the front of a text, after its sign -/
def number? (neg : Bool) (cs : List Char) : Option (Json × List Char) :=
  let whole : Option (List Char × List Char) := match cs with
    | [] => none
    | c :: rest =>
      if c = '0' then some ([c], rest)
      else if c.isDigit then some (spanDigits cs)
      else none
  match whole with
  | none => none
  | some (ds, rest) =>
    match fraction? rest, exponent? ((fraction? rest).elim rest Prod.snd) with
    | none, none => some (.int (Binary64.signed neg (digitsValue ds)), rest)
    | frac, exp =>
      let places := frac.elim [] Prod.fst
      let e := exp.elim 0 Prod.fst
      let left := exp.elim (frac.elim rest Prod.snd) Prod.snd
      some (.real (Binary64.ofDecimal neg (digitsValue (ds ++ places)) (e - places.length)), left)

def nan : Binary64 := Binary64.ofFields false 2047 (Nat.pow 2 51)

def infinity (neg : Bool) : Binary64 := Binary64.ofFields neg 2047 0

/-- the words of the format -/
def words : List (List Char × Json) :=
  [("null".toList, .null), ("true".toList, .bool true), ("false".toList, .bool false),
   ("NaN".toList, .real nan), ("Infinity".toList, .real (infinity false)), ("-Infinity".toList, .real (infinity true))]

def word? (cs : List Char) : Option (Json × List Char) :=
  words.findSome? fun w => (Text.dropPrefix? w.1 cs).map fun rest => (w.2, rest)

/-- a word or a number -/
def scalar? (cs : List Char) : Option (Json × List Char) :=
  match word? cs with
  | some r => some r
  | none =>
    match cs with
    | '-' :: rest => number? true rest
    | _ => number? false cs

mutual

/-- a value, with no blanks before it -/
def readValue : Nat → List Char → Except Failure (Json × List Char)
  | 0, cs => .error ⟨.value, cs⟩
  | fuel + 1, cs =>
    match cs with
    | '"' :: rest => do
      let (s, left) ← readString cs fuel rest
      pure (.str (String.ofList s), left)
    | '{' :: rest =>
      match skipSpace rest with
      | '}' :: left => .ok (.obj [], left)
      | inner => do
        let (ms, left) ← readMembers fuel [] inner
        pure (.obj ms, left)
    | '[' :: rest =>
      match skipSpace rest with
      | ']' :: left => .ok (.arr [], left)
      | inner => do
        let (items, left) ← readItems fuel inner
        pure (.arr items, left)
    | _ =>
      match scalar? cs with
      | some r => .ok r
      | none => .error ⟨.value, cs⟩

/-- the items of a list up to its closing bracket -/
def readItems : Nat → List Char → Except Failure (List Json × List Char)
  | 0, cs => .error ⟨.value, cs⟩
  | fuel + 1, cs => do
    let (v, rest) ← readValue fuel cs
    match skipSpace rest with
    | ']' :: left => .ok ([v], left)
    | ',' :: more => do
      let (vs, left) ← readItems fuel (skipSpace more)
      pure (v :: vs, left)
    | other => .error ⟨.comma, other⟩

/-- the members of an object up to its closing brace, added to those read before -/
def readMembers : Nat → Members → List Char → Except Failure (Members × List Char)
  | 0, _, cs => .error ⟨.name, cs⟩
  | fuel + 1, done, cs =>
    match cs with
    | '"' :: rest => do
      let (key, rest) ← readString cs fuel rest
      match skipSpace rest with
      | ':' :: rest => do
        let (v, rest) ← readValue fuel (skipSpace rest)
        let done := done.set (String.ofList key) v
        match skipSpace rest with
        | '}' :: left => .ok (done, left)
        | ',' :: more => readMembers fuel done (skipSpace more)
        | other => .error ⟨.comma, other⟩
      | other => .error ⟨.colon, other⟩
    | _ => .error ⟨.name, cs⟩

end

def atIndex (total : Nat) (f : Failure) : ReadError := ⟨f.cause, total - f.left.length⟩

/-- a whole text, blanks around the value allowed -/
def parseChars (cs : List Char) : Except ReadError Json :=
  match cs with
  | '\uFEFF' :: _ => .error ⟨.byteOrderMark, 0⟩
  | _ =>
    match readValue (2 * cs.length + 2) (skipSpace cs) with
    | .error f => .error (atIndex cs.length f)
    | .ok (v, rest) =>
      match skipSpace rest with
      | [] => .ok v
      | other => .error (atIndex cs.length ⟨.extra, other⟩)

def parse (s : String) : Except ReadError Json := parseChars s.toList

/-- line and column of a character, both counted from one -/
def lineColumn (cs : List Char) (position : Nat) : Nat × Nat :=
  (cs.take position).foldl (fun lc c => if c = '\n' then (lc.1 + 1, 1) else (lc.1, lc.2 + 1)) (1, 1)

/-- the cause with the place in the text -/
def ReadError.message (e : ReadError) (text : String) : String :=
  let lc := lineColumn text.toList e.position
  e.cause.message ++ ": line " ++ Nat.repr lc.1 ++ " column " ++ Nat.repr lc.2 ++
    " (char " ++ Nat.repr e.position ++ ")"

end Classwright.Json
