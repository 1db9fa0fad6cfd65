/-
Files of environment variables: one `name=value` to a line, perhaps behind `export`, with comments after `#`.

A value stands alone, or between quotes that may hold line ends; a backslash escapes the quote, and between double quotes
a few controls as well. A line that cannot be read is left out. `$` with a name in braces stands for a variable that was
set earlier in the file or in the environment, with a default after `:-`.

- `EnvFile.parse`: names and values in the order of the file; a name without `=` has no value;
- `EnvFile.values`: the same with variables put in.
-/
import Classwright.Table
import Classwright.Text.Basic

namespace Classwright.EnvFile

def isLineEnd (c : Char) : Bool := c == '\n' || c == '\r'

/-- a blank that stays on the line -/
def isSpace (c : Char) : Bool := Text.isBlank c && !isLineEnd c

def skipSpaces (cs : List Char) : List Char := cs.dropWhile isSpace

/-! ## Parts of a line -/

/-- what follows the word `export` with blanks behind it -/
def skipExport (cs : List Char) : List Char :=
  match Text.dropPrefix? "export".toList cs with
  | some (c :: rest) => if isSpace c then skipSpaces rest else cs
  | _ => cs

def isKeyChar (c : Char) : Bool := c != '=' && c != '#' && !Text.isBlank c

/-- a name, perhaps between single quotes; nothing before a comment -/
def readKey (cs : List Char) : Option (Option String × List Char) :=
  match cs with
  | '#' :: _ => some (none, cs)
  | '\'' :: rest =>
    let key := rest.takeWhile (· != '\'')
    match rest.drop key.length with
    | _ :: after => if key.isEmpty then none else some (some (String.ofList key), after)
    | [] => none
  | _ =>
    let key := cs.takeWhile isKeyChar
    if key.isEmpty then none else some (some (String.ofList key), cs.drop key.length)

/-- what stands before the closing quote; an escaped quote closes only when no other does -/
def readQuoted (quote : Char) : List Char → Option (List Char × List Char)
  | [] => none
  | [c] => if c = quote then some ([], []) else none
  | c :: d :: rest =>
    if c = quote then some ([], d :: rest)
    else if c = '\\' ∧ d = quote then
      match readQuoted quote rest with
      | some (value, after) => some (c :: d :: value, after)
      | none => some ([c], rest)
    else (readQuoted quote (d :: rest)).map fun r => (c :: r.1, r.2)

def singleEscapes : List (Char × Char) := [('\\', '\\'), ('\'', '\'')]

def doubleEscapes : List (Char × Char) :=
  singleEscapes ++ [('"', '"'), ('a', '\x07'), ('b', '\x08'), ('f', '\x0c'), ('n', '\n'), ('r', '\r'), ('t', '\t'),
    ('v', '\x0b')]

/-- escapes replaced by what they stand for -/
def unescape (escapes : List (Char × Char)) : List Char → List Char
  | [] => []
  | [c] => [c]
  | c :: d :: rest =>
    match if c = '\\' then Table.get? escapes d else none with
    | some x => x :: unescape escapes rest
    | none => c :: unescape escapes (d :: rest)

/-- a value without quotes up to the blanks before a comment -/
def cutComment : List Char → List Char
  | [] => []
  | c :: rest =>
    if Text.isBlank c && (rest.dropWhile Text.isBlank).head? == some '#' then [] else c :: cutComment rest

def trimEnd (cs : List Char) : List Char := (cs.reverse.dropWhile Text.isBlank).reverse

def readValue (cs : List Char) : Option (String × List Char) :=
  match cs with
  | [] => some ("", [])
  | '\'' :: rest => (readQuoted '\'' rest).map fun r => (String.ofList (unescape singleEscapes r.1), r.2)
  | '"' :: rest => (readQuoted '"' rest).map fun r => (String.ofList (unescape doubleEscapes r.1), r.2)
  | _ =>
    let line := cs.takeWhile fun c => !isLineEnd c
    some (String.ofList (trimEnd (cutComment line)), cs.drop line.length)

/-- a comment, when there is one after blanks -/
def skipComment (cs : List Char) : List Char :=
  match skipSpaces cs with
  | '#' :: rest => rest.dropWhile fun c => !isLineEnd c
  | _ => cs

/-- the end of a line, with blanks before it -/
def readLineEnd (cs : List Char) : Option (List Char) :=
  match skipSpaces cs with
  | [] => some []
  | '\r' :: '\n' :: rest => some rest
  | c :: rest => if isLineEnd c then some rest else none

def skipLine (cs : List Char) : List Char := (cs.dropWhile fun c => !isLineEnd c).drop 1

/-! ## Lines -/

/-- a name with its value -/
abbrev Binding := String × Option String

/-- what follows a name: its value, if there is one -/
def readAssigned (cs : List Char) : Option (Option String × List Char) :=
  match skipSpaces cs with
  | '=' :: rest => (readValue (skipSpaces rest)).map fun r => (some r.1, r.2)
  | rest => some (none, rest)

/-- one binding with the rest behind its line; `none` with the rest of a line that cannot be read -/
def readBinding (cs : List Char) : Option Binding × List Char :=
  let start := skipExport cs
  match readKey start with
  | none => (none, skipLine start)
  | some (key, afterKey) =>
    match readAssigned afterKey with
    | none => (none, skipLine (match skipSpaces afterKey with
        | '=' :: rest => skipSpaces rest
        | rest => rest))
    | some (value, afterValue) =>
      let after := skipComment afterValue
      match readLineEnd after with
      | none => (none, skipLine after)
      | some rest => (key.map fun k => (k, value), rest)

/-- the bindings in a text; every round reads at least one character, which `fuel` counts -/
def readAll : Nat → List Char → List Binding
  | 0, _ => []
  | fuel + 1, cs =>
    match cs.dropWhile Text.isBlank with
    | [] => []
    | start =>
      let r := readBinding start
      match r.1 with
      | some b => b :: readAll fuel r.2
      | none => readAll fuel r.2

def parse (s : String) : List Binding := readAll (s.length + 1) (Text.plainLineEnds s.toList)

/-! ## Variables in values -/

/-- a variable after `$` and an opening brace: its name, its default and what follows the closing brace -/
def readVariable (cs : List Char) : Option (String × String × List Char) :=
  let name := cs.takeWhile fun c => c != '\x7d' && c != ':'
  match cs.drop name.length with
  | '\x7d' :: rest => some (String.ofList name, "", rest)
  | ':' :: '-' :: more =>
    let other := more.takeWhile (· != '\x7d')
    match more.drop other.length with
    | _ :: rest => some (String.ofList name, String.ofList other, rest)
    | [] => none
  | _ => none

def substitute (lookup : String → Option String) : Nat → List Char → List Char
  | 0, cs => cs
  | _ + 1, [] => []
  | fuel + 1, c :: cs =>
    match c, cs with
    | '$', '\x7b' :: rest =>
      match readVariable rest with
      | some (name, other, after) => ((lookup name).getD other).toList ++ substitute lookup fuel after
      | none => c :: substitute lookup fuel cs
    | _, _ => c :: substitute lookup fuel cs

/-- the value of a variable so far: from the file, else from the environment; one without a value is empty -/
def lookup (environment : List (String × String)) (known : List Binding) (name : String) : Option String :=
  match Table.get? known name with
  | some value => some (value.getD "")
  | none => Table.get? environment name

def resolve (environment : List (String × String)) (known : List Binding) (b : Binding) : List Binding :=
  Table.set known b.1 (b.2.map fun value =>
    String.ofList (substitute (lookup environment known) (value.length + 1) value.toList))

/-- the bindings of a file with variables put in; the last value of a name counts -/
def values (environment : List (String × String)) (s : String) : List Binding :=
  (parse s).foldl (resolve environment) []

end Classwright.EnvFile
