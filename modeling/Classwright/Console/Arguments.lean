/-
Command lines: what the arguments of a program mean to a grammar.

A grammar has switches and one operand, which is either a single word or the name of a command with all that follows it.
Switches may stand anywhere before `--`; a long one may be shortened as long as it stays unambiguous, its value may be the
next argument or follow an equals sign, and short ones may be written together. A word with a minus that looks like a
negative number, or that holds a blank, is no switch.

- `Grammar.tokens`: the arguments as words and switches;
- `Grammar.read`: the operand, the values of switches, and the arguments that nothing takes;
- `Refusal.message`: why arguments are refused.
-/
import Classwright.Table
import Classwright.Text.Basic
import Classwright.Text.Quoted

namespace Classwright.Console

/-- what a switch takes -/
inductive Takes where
  /-- nothing: the switch asks for help -/
  | nothing
  /-- any text, which help calls by a name -/
  | text (shown : String)
  /-- one of some texts -/
  | oneOf (choices : List String)
  deriving DecidableEq, Repr

structure Switch where
  /-- with their minus signs; the last one names the switch -/
  spellings : List String
  takes : Takes
  help : String
  deriving DecidableEq, Repr

def Switch.name (s : Switch) : String := s.spellings.getLastD ""

/-- the words of a command line that belong to no switch -/
inductive Operand where
  | word (name help : String)
  /-- a command and the arguments of its own; the commands with what they do -/
  | command (name : String) (commands : List (String × String))
  deriving DecidableEq, Repr

def Operand.name : Operand → String
  | .word name _ => name
  | .command name _ => name

structure Grammar where
  program : String
  about : String
  switches : List Switch
  operand : Operand
  /-- a text that ends the help -/
  closing : String
  deriving DecidableEq, Repr

/-! ## Refusals -/

inductive Refusal where
  | ambiguous (given : String) (candidates : List String)
  | missingValue (s : Switch)
  | unexpectedValue (s : Switch) (value : String)
  | badChoice (argument value : String) (choices : List String)
  | missing (operand : String)
  | unknown (arguments : List String)
  deriving DecidableEq, Repr

namespace Refusal

/-- a switch as messages call it -/
def switchName (s : Switch) : String := Text.joinWith "/" s.spellings

def message : Refusal → String
  | .ambiguous given candidates => "ambiguous option: " ++ given ++ " could match " ++ Text.joinWith ", " candidates
  | .missingValue s => "argument " ++ switchName s ++ ": expected one argument"
  | .unexpectedValue s value => "argument " ++ switchName s ++ ": ignored explicit argument " ++ Text.quoted value
  | .badChoice argument value choices =>
    "argument " ++ argument ++ ": invalid choice: " ++ Text.quoted value ++ " (choose from " ++
      Text.joinWith ", " (choices.map Text.quoted) ++ ")"
  | .missing operand => "the following arguments are required: " ++ operand
  | .unknown arguments => "unrecognized arguments: " ++ Text.joinWith " " arguments

end Refusal

/-- why a command line is not carried out -/
inductive Stop where
  | help (g : Grammar)
  | refused (g : Grammar) (r : Refusal)
  deriving DecidableEq, Repr

/-! ## Tokens -/

/-- what follows a switch in the same argument -/
inductive Joined where
  | nothing
  | afterEquals (text : List Char)
  /-- after a short switch: its value, or more short switches -/
  | directly (text : List Char)
  deriving DecidableEq, Repr

structure Reading where
  switch : Switch
  spelling : String
  joined : Joined
  deriving DecidableEq, Repr

inductive Token where
  | word (text : String)
  /-- `--`: every later argument is a word -/
  | divider
  /-- an argument that looks like a switch, and how it is read if there is such a switch -/
  | switch (given : String) (reading : Option Reading)
  deriving DecidableEq, Repr

def Token.given : Token → String
  | .word text => text
  | .divider => "--"
  | .switch given _ => given

/-- the first of each block of ten decimal digits -/
def zeros : List Nat := [
  48, 1632, 1776, 1984, 2406, 2534, 2662, 2790, 2918, 3046, 3174, 3302, 3430, 3558, 3664, 3792, 3872, 4160, 4240, 6112,
  6160, 6470, 6608, 6784, 6800, 6992, 7088, 7232, 7248, 42528, 43216, 43264, 43472, 43504, 43600, 44016, 65296, 66720,
  68912, 69734, 69872, 69942, 70096, 70384, 70736, 70864, 71248, 71360, 71472, 71904, 72016, 72784, 73040, 73120, 92768,
  92864, 93008, 120782, 120792, 120802, 120812, 120822, 123200, 123632, 125264, 130032]

/-- a decimal digit of any script -/
def isDecimalDigit (c : Char) : Bool := zeros.any fun z => decide (z ≤ c.toNat ∧ c.toNat < z + 10)

/-- a minus, then digits, perhaps with a point before the last of them; a line feed may follow -/
def isNegativeNumber : List Char → Bool
  | '-' :: cs =>
    let cs := if cs.getLast? = some '\n' then cs.dropLast else cs
    let whole := cs.takeWhile isDecimalDigit
    match cs.drop whole.length with
    | [] => !whole.isEmpty
    | '.' :: places => !places.isEmpty && places.all isDecimalDigit
    | _ => false
  | _ => false

namespace Grammar

/-- every spelling with its switch -/
def spellings (g : Grammar) : List (String × Switch) := g.switches.flatMap fun s => s.spellings.map fun t => (t, s)

def find? (g : Grammar) (spelling : List Char) : Option Switch := Table.get? g.spellings (String.ofList spelling)

/-- a text up to its first equals sign, and what follows it -/
def cutAtEquals (cs : List Char) : List Char × Option (List Char) :=
  let front := cs.takeWhile (· != '=')
  match cs.drop front.length with
  | _ :: back => (front, some back)
  | [] => (front, none)

def joinedTo (back : Option (List Char)) : Joined :=
  match back with
  | some text => .afterEquals text
  | none => .nothing

def startsWith (cs front : List Char) : Bool := (Text.dropPrefix? front cs).isSome

/-- the ways to read an argument as a shortened switch or as a short one with its value -/
def candidates (g : Grammar) (cs : List Char) : List Reading :=
  let cut := cutAtEquals cs
  if startsWith cs ['-', '-'] then
    g.spellings.filterMap fun (t, s) =>
      if startsWith t.toList cut.1 then some ⟨s, t, joinedTo cut.2⟩ else none
  else
    g.spellings.filterMap fun (t, s) =>
      if t.toList = cs.take 2 then some ⟨s, t, .directly (cs.drop 2)⟩
      else if startsWith t.toList cs then some ⟨s, t, .nothing⟩
      else none

/-- an argument before `--` -/
def token (g : Grammar) (given : String) : Except Refusal Token :=
  let cs := given.toList
  match cs with
  | '-' :: _ :: _ =>
    match g.find? cs, cutAtEquals cs with
    | some s, _ => .ok (.switch given (some ⟨s, given, .nothing⟩))
    | none, (front, back) =>
      match g.find? front, back with
      | some s, some value => .ok (.switch given (some ⟨s, String.ofList front, .afterEquals value⟩))
      | _, _ =>
        match g.candidates cs with
        | [r] => .ok (.switch given (some r))
        | [] => .ok (if isNegativeNumber cs || cs.contains ' ' then .word given else .switch given none)
        | rs => .error (.ambiguous given (rs.map Reading.spelling))
  | _ => .ok (.word given)

def tokens (g : Grammar) : List String → Except Refusal (List Token)
  | [] => .ok []
  | s :: rest =>
    if s = "--" then .ok (.divider :: rest.map Token.word)
    else do
      let t ← g.token s
      let ts ← g.tokens rest
      pure (t :: ts)

/-! ## Reading -/

/-- what was read -/
structure Found where
  operand : Option (List String) := none
  /-- the values of switches by their names, the last one first -/
  values : List (String × String) := []
  /-- arguments that nothing takes -/
  unknown : List String := []
  deriving DecidableEq, Repr

def Found.value? (f : Found) (name : String) : Option String := Table.get? f.values name

def Found.leave (f : Found) (argument : String) : Found := { f with unknown := f.unknown ++ [argument] }

/-- what becomes of an argument with switches -/
inductive Use where
  | help
  | value (s : Switch) (text : String)
  /-- the next word is the value; afterwards help is shown if it was asked for in the same argument -/
  | next (s : Switch) (helped : Bool)
  deriving DecidableEq, Repr

/-- a use behind a switch that asked for help -/
def Use.helped : Use → Use
  | .next s _ => .next s true
  | _ => .help

def useAlone (s : Switch) : Use := if s.takes = .nothing then .help else .next s false

def useWith (s : Switch) (text : List Char) : Except Refusal Use :=
  if s.takes = .nothing then .error (.unexpectedValue s (String.ofList text)) else .ok (.value s (String.ofList text))

/-- a short switch and what directly follows it: more of them when it takes no value -/
def useShort (g : Grammar) (s : Switch) : List Char → Except Refusal Use
  | [] => .ok (useAlone s)
  | '=' :: text => useWith s text
  | c :: cs =>
    if s.takes = .nothing ∧ c ≠ '-' then
      match g.find? ['-', c] with
      | none => .ok .help
      | some t => (g.useShort t cs).map Use.helped
    else useWith s (c :: cs)

def useOf (g : Grammar) (r : Reading) : Except Refusal Use :=
  match r.joined with
  | .nothing => .ok (useAlone r.switch)
  | .afterEquals text => useWith r.switch text
  | .directly text => g.useShort r.switch text

/-- the value of a switch noted, if it is one that the switch takes -/
def setValue (f : Found) (s : Switch) (text : String) : Except Refusal Found :=
  match s.takes with
  | .oneOf choices =>
    if choices.contains text then .ok { f with values := (s.name, text) :: f.values }
    else .error (.badChoice (Refusal.switchName s) text choices)
  | _ => .ok { f with values := (s.name, text) :: f.values }

def refuse {α : Type} (g : Grammar) : Except Refusal α → Except Stop α
  | .ok a => .ok a
  | .error r => .error (.refused g r)

/-- the tokens taken one after the other. A `--` next to the operand belongs to it -/
def take (g : Grammar) : Found → List Token → Except Stop Found
  | f, [] => .ok f
  | f, .word s :: .divider :: rest =>
    match f.operand, g.operand with
    | some _, _ => g.take ((f.leave s).leave "--") rest
    | none, .command .. => .ok { f with operand := some (s :: "--" :: rest.map Token.given) }
    | none, .word .. => g.take { f with operand := some [s] } rest
  | f, .word s :: rest =>
    match f.operand, g.operand with
    | some _, _ => g.take (f.leave s) rest
    | none, .command .. => .ok { f with operand := some (s :: rest.map Token.given) }
    | none, .word .. => g.take { f with operand := some [s] } rest
  | f, [.divider] => .ok (f.leave "--")
  | f, .divider :: t :: rest =>
    match f.operand, g.operand with
    | some _, _ => g.take ((f.leave "--").leave t.given) rest
    | none, .command .. => .ok { f with operand := some ("--" :: t.given :: rest.map Token.given) }
    | none, .word .. => g.take { f with operand := some [t.given] } rest
  | f, .switch given none :: rest => g.take (f.leave given) rest
  | f, .switch _ (some r) :: .word text :: rest =>
    match g.useOf r with
    | .error e => .error (.refused g e)
    | .ok .help => .error (.help g)
    | .ok (.value s joined) =>
      match setValue f s joined with
      | .error e => .error (.refused g e)
      | .ok f => g.take f (.word text :: rest)
    | .ok (.next s helped) =>
      if helped then .error (.help g)
      else match setValue f s text with
        | .error e => .error (.refused g e)
        | .ok f => g.take f rest
  | f, .switch _ (some r) :: rest =>
    match g.useOf r with
    | .error e => .error (.refused g e)
    | .ok .help => .error (.help g)
    | .ok (.value s joined) =>
      match setValue f s joined with
      | .error e => .error (.refused g e)
      | .ok f => g.take f rest
    | .ok (.next s _) => .error (.refused g (.missingValue s))

/-- the operand with its arguments, and all else that was found -/
def read (g : Grammar) (arguments : List String) : Except Stop (List String × Found) := do
  let ts ← g.refuse (g.tokens arguments)
  let f ← g.take {} ts
  match f.operand with
  | some words => pure (words, f)
  | none => .error (.refused g (.missing g.operand.name))

end Grammar

end Classwright.Console
