/-
Marked-up texts: tags in brackets set the style of what stands between them and are not shown.

A tag starts with a small letter or one of `#`, `/` and `@`; every other bracket is an ordinary character. A backslash
before a tag makes it ordinary, two backslashes stand for one. `[/name]` closes the last open tag of that name and `[/]`
the last open tag; one that closes nothing is an error.

- `Markup.pieces`: a text cut into tags and what stands between them;
- `Markup.shown`: the text without its tags.
-/
import Classwright.Text.Basic
import Classwright.Text.Case

namespace Classwright.Console

inductive Piece where
  | text (cs : List Char)
  | opening (name : List Char)
  | closing (name : List Char)
  deriving DecidableEq, Repr

/-- a tag that closes nothing -/
structure Unmatched where
  name : List Char
  deriving DecidableEq, Repr

namespace Markup

def startsTag (c : Char) : Bool := decide ('a' ≤ c ∧ c ≤ 'z') || c == '#' || c == '/' || c == '@'

/-- what stands in a tag, and what follows it, when the text after an opening bracket is one -/
def tag? (cs : List Char) : Option (List Char × List Char) :=
  match cs with
  | [] => none
  | c :: _ =>
    if startsTag c then
      let inner := cs.takeWhile fun x => x != '[' && x != ']'
      match cs.drop inner.length with
      | ']' :: rest => some (inner, rest)
      | _ => none
    else none

/-- names are compared without regard to case and outer blanks -/
def normalName (cs : List Char) : List Char := (Text.lower (Text.strip (String.ofList cs))).toList

/-- the name of a tag is what stands before an equals sign -/
def pieceOf (inner : List Char) : Piece :=
  match inner.takeWhile (· != '=') with
  | '/' :: name => .closing (normalName name)
  | name => .opening (normalName name)

/-- an opening bracket that is no tag may be written with a backslash, which is not shown -/
def plainBrackets : List Char → List Char
  | [] => []
  | '\\' :: '[' :: cs => '[' :: plainBrackets cs
  | c :: cs => c :: plainBrackets cs

def textPiece (cs : List Char) : List Piece := if cs.isEmpty then [] else [.text (plainBrackets cs)]

/-- the backslashes before a tag: half of them are shown; an odd one makes the tag ordinary -/
def escaped (slashes : Nat) (inner : List Char) : List Piece :=
  textPiece (List.replicate (slashes / 2) '\\') ++
    if slashes % 2 = 1 then [.text ('[' :: inner ++ [']'])] else [pieceOf inner]

/-- a text in pieces; `before` was read and belongs to no tag. `fuel` bounds the number of characters -/
def scan : Nat → List Char → List Char → List Piece
  | 0, before, _ => textPiece before
  | _ + 1, before, [] => textPiece before
  | fuel + 1, before, c :: cs =>
    let slashes := ((c :: cs).takeWhile (· == '\\')).length
    match (c :: cs).drop slashes with
    | '[' :: rest =>
      match tag? rest with
      | some (inner, rest) => textPiece before ++ escaped slashes inner ++ scan fuel [] rest
      | none => scan fuel (before ++ (c :: cs).take (slashes + 1)) rest
    | rest => if slashes = 0 then scan fuel (before ++ [c]) cs else scan fuel (before ++ List.replicate slashes '\\') rest

def pieces (cs : List Char) : List Piece := scan (cs.length + 1) [] cs

/-- the open tags, the last one first, without the last one of a name -/
def close? (opened : List (List Char)) (name : List Char) : Option (List (List Char)) :=
  if name.isEmpty then opened.tail?
  else if opened.contains name then some (opened.erase name)
  else none

/-- control characters that are never shown -/
def isSilent (c : Char) : Bool := [7, 8, 11, 12, 13].contains c.toNat

/-- what is shown of the pieces, with the names of the open tags, the last one first -/
def join (opened : List (List Char)) : List Piece → Except Unmatched (List Char)
  | [] => .ok []
  | .text cs :: rest => (join opened rest).map ((cs.filter fun c => !isSilent c) ++ ·)
  | .opening name :: rest => join (name :: opened) rest
  | .closing name :: rest =>
    match close? opened name with
    | some opened => join opened rest
    | none => .error ⟨name⟩

/-- a text without its tags -/
def shown (s : String) : Except Unmatched (List Char) := join [] (pieces s.toList)

end Markup

end Classwright.Console
