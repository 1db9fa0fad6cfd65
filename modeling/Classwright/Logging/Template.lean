/-
Templates: texts with places for values, each place a percent sign with a conversion letter.

Between the two may stand the name of a value in parentheses, the flags `-`, `+`, blank, `#` and `0`, a width, and a
precision after a point. Values are taken one after the other, or by name from an object.

- `Template.fill`: a template with its values put in, or the reason why they do not fit;
- `Template.hasNamedPlace`: whether a template asks for at least one value by name.
-/
import Classwright.Fault
import Classwright.Number.Decimal

namespace Classwright.Template

/-- the values for a template -/
inductive Values where
  | inOrder (xs : List Json)
  | byName (members : Members)

structure Spec where
  left : Bool := false
  plus : Bool := false
  space : Bool := false
  alternate : Bool := false
  zero : Bool := false
  width : Nat := 0
  precision : Option Nat := none

/-! ## One value -/

def Spec.padText (spec : Spec) (s : String) : String :=
  if spec.left then Text.padRight spec.width s else Text.padLeft spec.width s

/-- a number with its sign, padded with zeros behind the sign or with blanks -/
def Spec.padNumber (spec : Spec) (negative : Bool) (lead digits : String) : String :=
  let sign := if negative then "-" else if spec.plus then "+" else if spec.space then " " else ""
  if spec.zero && !spec.left then
    sign ++ lead ++ Binary64.zeros (spec.width - (sign.length + lead.length + digits.length)) ++ digits
  else spec.padText (sign ++ lead ++ digits)

def Spec.cut (spec : Spec) (s : String) : String :=
  match spec.precision with
  | some n => String.ofList (s.toList.take n)
  | none => s

/-- whole numbers, and others without their fraction -/
def wholeOf : Json → Except Fault Int
  | .int n => .ok n
  | .bool b => .ok (if b then 1 else 0)
  | .real x =>
    match x.value with
    | .nan => .error (.badValue "cannot convert float NaN to integer")
    | .infinite _ => .error .tooLarge
    | .finite neg m q =>
      let r := Binary64.ratio m q
      .ok (Binary64.signed neg (r.1 / r.2))
  | _ => .error .wrongType

/-- whole numbers only -/
def exactOf : Json → Except Fault Int
  | .int n => .ok n
  | .bool b => .ok (if b then 1 else 0)
  | _ => .error .wrongType

def realOf : Json → Except Fault Binary64
  | .real x => .ok x
  | .int n => let x := Binary64.ofInt n; if x.isFinite then .ok x else .error .tooLarge
  | .bool b => .ok (Binary64.ofInt (if b then 1 else 0))
  | _ => .error .wrongType

def digitsIn (base n : Nat) : String := String.ofList (Nat.toDigits base n)

def Spec.whole (spec : Spec) (base : Nat) (lead : String) (upper : Bool) (n : Int) : String :=
  let digits := digitsIn base n.natAbs
  let digits := Binary64.zeros ((spec.precision.getD 0) - digits.length) ++ digits
  let lead := if spec.alternate then lead else ""
  spec.padNumber (decide (n < 0)) (if upper then Text.upper lead else lead) (if upper then Text.upper digits else digits)

def Spec.real (spec : Spec) (letter : Char) (x : Binary64) : String :=
  let places := spec.precision.getD 6
  let r : Bool × String := match x.value with
    | .nan => (false, "nan")
    | .infinite neg => (neg, "inf")
    | .finite neg m q =>
      let f := Binary64.ratio m q
      (neg, match letter.toLower with
        | 'f' => Binary64.fixedRatioText spec.alternate places f.1 f.2
        | 'e' => Binary64.scientificRatioText spec.alternate places f.1 f.2
        | _ => Binary64.generalRatioText spec.alternate places f.1 f.2)
  spec.padNumber r.1 "" (if letter.isUpper then Text.upper r.2 else r.2)

/-- a text with every character outside ASCII escaped -/
def asciiOnly (s : String) : String :=
  String.ofList (s.toList.flatMap fun c =>
    let n := c.toNat
    if n < 128 then [c]
    else if n < 0x100 then '\\' :: 'x' :: Text.hexDigits 2 n
    else if n < 0x10000 then '\\' :: 'u' :: Text.hexDigits 4 n
    else '\\' :: 'U' :: Text.hexDigits 8 n)

def character (j : Json) : Except Fault String :=
  match j with
  | .str s => if s.length = 1 then .ok s else .error .wrongType
  | _ =>
    match exactOf j with
    | .ok n => if 0 ≤ n ∧ n < 0x110000 then .ok (String.ofList [Char.ofNat n.toNat]) else .error .tooLarge
    | .error f => .error f

/-- the letters of conversions -/
def letters : List Char := "diouxXeEfFgGcrsa".toList

def unknownLetter (letter : Char) (position : Nat) : Fault :=
  .badValue ("unsupported format character '" ++
    String.ofList [if 31 < letter.toNat ∧ letter.toNat < 127 then letter else '?'] ++ "' (0x" ++
    digitsIn 16 letter.toNat ++ ") at index " ++ Nat.repr position)

/-- one value as its conversion wants it -/
def convert (spec : Spec) (letter : Char) (position : Nat) (j : Json) : Except Fault String :=
  match letter with
  | 's' => .ok (spec.padText (spec.cut j.display))
  | 'r' => .ok (spec.padText (spec.cut j.literal))
  | 'a' => .ok (spec.padText (spec.cut (asciiOnly j.literal)))
  | 'c' => (character j).map spec.padText
  | 'd' | 'i' | 'u' => (wholeOf j).map (spec.whole 10 "" false)
  | 'o' => (exactOf j).map (spec.whole 8 "0o" false)
  | 'x' => (exactOf j).map (spec.whole 16 "0x" false)
  | 'X' => (exactOf j).map (spec.whole 16 "0x" true)
  | _ =>
    if letters.contains letter then (realOf j).map (spec.real letter) else .error (unknownLetter letter position)

/-! ## A whole template -/

/-- the values that are left; an object given as a whole can be taken once, and not after a value by name -/
structure Supply where
  values : Values
  taken : Bool := false

def Supply.next (s : Supply) : Except Fault (Json × Supply) :=
  match s.values with
  | .inOrder (x :: xs) => .ok (x, { s with values := .inOrder xs })
  | .inOrder [] => .error .wrongType
  | .byName members => if s.taken then .error .wrongType else .ok (.obj members, { s with taken := true })

def Supply.named (s : Supply) (key : String) : Except Fault Json :=
  match s.values with
  | .byName members =>
    match members.get? key with
    | some j => .ok j
    | none => .error (.noKey key)
  | .inOrder _ => .error .wrongType

/-- whether everything was put in -/
def Supply.done (s : Supply) : Bool :=
  match s.values with
  | .inOrder xs => xs.isEmpty
  | .byName _ => true

def incomplete : Fault := .badValue "incomplete format"

/-- the length of a name up to the parenthesis that closes it -/
def nameLength? : Nat → List Char → Option Nat
  | _, [] => none
  | depth, c :: cs =>
    if c = ')' then (if depth = 0 then some 0 else (nameLength? (depth - 1) cs).map (· + 1))
    else (nameLength? (if c = '(' then depth + 1 else depth) cs).map (· + 1)

def isFlag (c : Char) : Bool := c == '-' || c == '+' || c == ' ' || c == '#' || c == '0'

def specOfFlags (flags : List Char) : Spec :=
  { left := flags.contains '-', plus := flags.contains '+', space := flags.contains ' ',
    alternate := flags.contains '#', zero := flags.contains '0' }

def numberOf (cs : List Char) : Nat := cs.foldl (fun n c => n * 10 + (c.toNat - 48)) 0

/-- a width or a precision: what it is called, and the bound it stays below -/
structure Amount where
  name : String
  bound : Nat

def Amount.width : Amount := ⟨"width", Nat.pow 2 63⟩

def Amount.precision : Amount := ⟨"precision", Nat.pow 2 31⟩

/-- a number, or a star that takes it from the values; with the characters and values behind it -/
def readAmount (a : Amount) (cs : List Char) (s : Supply) : Except Fault (Int × List Char × Supply) :=
  match cs with
  | '*' :: rest =>
    match s.next with
    | .error f => .error f
    | .ok (j, s) =>
      match exactOf j with
      | .ok n => if n.natAbs < a.bound then .ok (n, rest, s) else .error .tooLarge
      | .error f => .error f
  | _ =>
    let digits := cs.takeWhile Char.isDigit
    if numberOf digits < a.bound then .ok (numberOf digits, cs.drop digits.length, s)
    else .error (.badValue (a.name ++ " too big"))

/-- what stands between a percent sign and its letter -/
def readSpec (cs : List Char) (s : Supply) : Except Fault (Spec × List Char × Supply) :=
  let flags := cs.takeWhile isFlag
  match readAmount .width (cs.drop flags.length) s with
  | .error f => .error f
  | .ok (width, rest, s) =>
    let spec := specOfFlags flags
    let spec := { spec with left := spec.left || decide (width < 0), width := width.natAbs }
    match rest with
    | '.' :: more =>
      match readAmount .precision more s with
      | .error f => .error f
      | .ok (n, rest, s) => .ok ({ spec with precision := some n.toNat }, rest, s)
    | _ => .ok (spec, rest, s)

def skipSize (cs : List Char) : List Char :=
  match cs with
  | c :: rest => if c = 'h' ∨ c = 'l' ∨ c = 'L' then rest else cs
  | [] => []

/-- one place behind its percent sign: the text for it, and what is left. `size` is the length of the template -/
def fillPlace (size : Nat) (cs : List Char) (s : Supply) : Except Fault (String × List Char × Supply) := do
  let (value, cs, isNamed) ← match cs with
    | '(' :: rest =>
      match s.values with
      | .inOrder _ => .error .wrongType
      | .byName _ =>
        match nameLength? 0 rest with
        | none => .error (.badValue "incomplete format key")
        | some n => (s.named (String.ofList (rest.take n))).map fun j => (j, rest.drop (n + 1), true)
    | _ => pure (.null, cs, false)
  let (spec, rest, s) ← readSpec cs s
  match skipSize rest with
  | [] => .error incomplete
  | letter :: after =>
    let position := size - after.length - 1
    if isNamed then (convert spec letter position value).map fun t => (t, after, { s with taken := true })
    else
      let (j, s) ← s.next
      (convert spec letter position j).map fun t => (t, after, s)

/-- a template read to its end; `fuel` counts its characters -/
def run (size : Nat) : Nat → List Char → Supply → Except Fault (String × Supply)
  | 0, _, s => .ok ("", s)
  | _ + 1, [], s => .ok ("", s)
  | fuel + 1, '%' :: '%' :: rest, s => (run size fuel rest s).map fun r => ("%" ++ r.1, r.2)
  | fuel + 1, '%' :: rest, s =>
    match fillPlace size rest s with
    | .error f => .error f
    | .ok (t, after, s) => (run size fuel after s).map fun r => (t ++ r.1, r.2)
  | fuel + 1, c :: rest, s => (run size fuel rest s).map fun r => (String.ofList [c] ++ r.1, r.2)

/-- a template with its values put in; values that are left over are refused -/
def fill (template : String) (values : Values) : Except Fault String :=
  match run template.length (template.length + 1) template.toList ⟨values, false⟩ with
  | .error f => .error f
  | .ok (t, s) => if s.done then .ok t else .error .wrongType

/-! ## Named places -/

def isWordChar (c : Char) : Bool := c.isAlphanum || c == '_' || (128 ≤ c.toNat && !Text.isBlank c)

/-- what follows a number or a star, if there is one -/
def skipAmount (cs : List Char) : List Char :=
  match cs with
  | '*' :: rest => rest
  | _ => cs.dropWhile Char.isDigit

/-- whether a place that takes a value by name starts here -/
def startsNamedPlace (cs : List Char) : Bool :=
  match cs with
  | '%' :: '(' :: rest =>
    let name := rest.takeWhile isWordChar
    match name.isEmpty, rest.drop name.length with
    | false, ')' :: rest =>
      let rest := skipAmount (rest.dropWhile isFlag)
      match rest with
      | '.' :: '*' :: c :: _ => (letters ++ ['%']).contains c.toLower
      | '.' :: more =>
        let after := more.dropWhile Char.isDigit
        after.length < more.length && (after.head?.any fun c => (letters ++ ['%']).contains c.toLower)
      | c :: _ => (letters ++ ['%']).contains c.toLower
      | [] => false
    | _, _ => false
  | _ => false

/-- whether a template takes at least one value by name -/
def hasNamedPlace : List Char → Bool
  | [] => false
  | c :: cs => startsNamedPlace (c :: cs) || hasNamedPlace cs

end Classwright.Template
