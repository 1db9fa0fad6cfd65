/-
What a program says about its command line: the usage in one line, and the help with a line for every argument.
-/
import Classwright.Console.Arguments

namespace Classwright.Console

/-- the word that stands for the value of a switch -/
def Takes.shown? : Takes → Option String
  | .nothing => none
  | .text shown => some shown
  | .oneOf choices => some ("\x7b" ++ Text.joinWith "," choices ++ "\x7d")

namespace Switch

/-- a spelling with the value it takes -/
def call (s : Switch) (spelling : String) : String :=
  match s.takes.shown? with
  | some shown => spelling ++ " " ++ shown
  | none => spelling

/-- every way to write a switch -/
def calls (s : Switch) : String := Text.joinWith ", " (s.spellings.map s.call)

end Switch

/-- a line of the help; one without an explanation is only named -/
structure HelpEntry where
  indent : Nat
  head : String
  help : Option String
  deriving DecidableEq, Repr

namespace HelpEntry

/-- the column in which explanations start at the latest -/
def lastColumn : Nat := 24

/-- explanations start two blanks behind the longest head -/
def column (es : List HelpEntry) : Nat := min ((es.map fun e => e.head.length + 4).foldl max 0) lastColumn

/-- a head that leaves no room for two blanks has its explanation on the next line -/
def lines (column : Nat) (e : HelpEntry) : List String :=
  let head := Text.padRight e.indent "" ++ e.head
  match e.help with
  | none => [head]
  | some help =>
    if head.length + 2 ≤ column then [Text.padRight column head ++ help]
    else [head, Text.padRight column "" ++ help]

end HelpEntry

namespace Grammar

def operandUsage (o : Operand) : String :=
  match o with
  | .word name _ => name
  | .command name _ => name ++ " ..."

def usage (g : Grammar) : String :=
  let parts := g.switches.map fun s => "[" ++ s.call (s.spellings.headD "") ++ "]"
  "usage: " ++ Text.joinWith " " (g.program :: parts ++ [operandUsage g.operand])

def operandEntries (o : Operand) : List HelpEntry :=
  match o with
  | .word name help => [⟨2, name, some help⟩]
  | .command name commands => ⟨2, name, none⟩ :: commands.map fun c => ⟨4, c.1, some c.2⟩

def switchEntries (g : Grammar) : List HelpEntry := g.switches.map fun s => ⟨2, s.calls, some s.help⟩

/-- a heading with the entries below it -/
def block (column : Nat) (heading : String) (es : List HelpEntry) : String :=
  Text.joinWith "\n" ((heading ++ ":") :: es.flatMap (HelpEntry.lines column))

def help (g : Grammar) : String :=
  let operands := operandEntries g.operand
  let column := HelpEntry.column (operands ++ g.switchEntries)
  let parts := [g.usage, g.about, block column "positional arguments" operands,
    block column "options" g.switchEntries, g.closing]
  Text.joinWith "\n\n" (parts.filter fun p => !p.isEmpty) ++ "\n"

/-- the usage, and why arguments are refused -/
def complaint (g : Grammar) (r : Refusal) : String :=
  g.usage ++ "\n" ++ g.program ++ ": error: " ++ r.message ++ "\n"

end Grammar

end Classwright.Console
