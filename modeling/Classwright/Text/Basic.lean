/-
Plain operations on texts that the other modules share.

- `isBlank`, `strip`: the characters that count as blanks, and a text without them at both ends;
- `splitOn`, `joinWith`: cutting at a separator and putting the pieces together again;
- `replaceAll`: every occurrence of a pattern, from the left;
- `padRight`, `padLeft`: filling up to a width.

`joinWith_splitOn` says that cutting and joining at one character lose nothing.
-/

namespace Classwright.Text

/-- blanks: the separators of lines, fields and words, and the spaces of every width -/
def isBlank (c : Char) : Bool :=
  let n := c.toNat
  decide (9 ≤ n ∧ n ≤ 13) || decide (28 ≤ n ∧ n ≤ 32) || n == 0x85 || n == 0xA0 || n == 0x1680 ||
    decide (0x2000 ≤ n ∧ n ≤ 0x200A) || n == 0x2028 || n == 0x2029 || n == 0x202F || n == 0x205F || n == 0x3000

def stripChars (p : Char → Bool) (cs : List Char) : List Char :=
  ((cs.dropWhile p).reverse.dropWhile p).reverse

/-- a text without the blanks at its ends -/
def strip (s : String) : String := String.ofList (stripChars isBlank s.toList)

/-- the pieces between the occurrences of a character; at least one piece -/
def splitChars (sep : Char) : List Char → List (List Char)
  | [] => [[]]
  | c :: rest =>
    if c = sep then [] :: splitChars sep rest
    else match splitChars sep rest with
      | [] => [[c]]
      | piece :: more => (c :: piece) :: more

def splitOn (sep : Char) (s : String) : List String := (splitChars sep s.toList).map String.ofList

/-- the pieces one after the other with a separator between them -/
def joinWith (sep : String) : List String → String
  | [] => ""
  | [s] => s
  | s :: rest => s ++ sep ++ joinWith sep rest

def joinChars (sep : Char) : List (List Char) → List Char
  | [] => []
  | [s] => s
  | s :: rest => s ++ sep :: joinChars sep rest

theorem splitChars_ne_nil (sep : Char) (cs : List Char) : splitChars sep cs ≠ [] := by
  cases cs with
  | nil => simp [splitChars]
  | cons c rest =>
    rw [splitChars]
    split
    · simp
    · split <;> simp

theorem joinWith_splitOn (sep : Char) (cs : List Char) : joinChars sep (splitChars sep cs) = cs := by
  induction cs with
  | nil => rfl
  | cons c rest ih =>
    rw [splitChars]
    cases h : splitChars sep rest with
    | nil => exact absurd h (splitChars_ne_nil sep rest)
    | cons piece more =>
      rw [h] at ih
      split
      · next hc => subst hc; simp [joinChars, ih]
      · cases more with
        | nil => simpa [joinChars] using ih
        | cons p ps => simpa [joinChars] using ih

/-- what follows a prefix, when the text starts with it -/
def dropPrefix? : List Char → List Char → Option (List Char)
  | [], cs => some cs
  | _ :: _, [] => none
  | p :: ps, c :: cs => if p = c then dropPrefix? ps cs else none

/-- every occurrence of a pattern replaced, from the left; what was put in is not looked at again. `fuel` bounds the
number of characters read -/
def replaceChars (pat rep : List Char) : Nat → List Char → List Char
  | 0, cs => cs
  | _ + 1, [] => []
  | fuel + 1, c :: cs =>
    match dropPrefix? pat (c :: cs) with
    | some rest => rep ++ replaceChars pat rep fuel rest
    | none => c :: replaceChars pat rep fuel cs

def replaceAll (pat rep s : String) : String :=
  if pat.isEmpty then s
  else String.ofList (replaceChars pat.toList rep.toList (s.length + 1) s.toList)

def padRight (width : Nat) (s : String) : String := s ++ String.ofList (List.replicate (width - s.length) ' ')

def padLeft (width : Nat) (s : String) : String := String.ofList (List.replicate (width - s.length) ' ') ++ s

/-- line ends written as carriage return and line feed, or as carriage return alone, read as a line feed -/
def plainLineEnds : List Char → List Char
  | [] => []
  | '\r' :: '\n' :: rest => '\n' :: plainLineEnds rest
  | c :: rest => (if c = '\r' then '\n' else c) :: plainLineEnds rest

/-- order of texts by their code points -/
def precedes (a b : String) : Bool := decide (a ≤ b)

/-- texts in ascending order of their code points -/
def sort (xs : List String) : List String := xs.mergeSort precedes

/-- a list without repetitions; the first of equal elements stays -/
def distinct {α : Type} [BEq α] (xs : List α) : List α :=
  xs.foldl (fun seen x => if seen.contains x then seen else seen ++ [x]) []

end Classwright.Text
