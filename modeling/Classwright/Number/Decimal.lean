/-
Decimal text of numbers.

- `shortestDigits`: the fewest decimal digits that read back as the same double-precision number, and of those the
  nearest to it;
- `shortestText`: those digits, positional from 10⁻⁴ up to below 10¹⁶, with an exponent of at least two digits elsewhere;
- `fixedText`: a given number of places, a half going to the even neighbour of the exact value;
- `scientificRatioText`, `generalRatioText`: a given number of digits, always with an exponent or only where it is needed.
-/
import Classwright.Number.Binary64

namespace Classwright.Binary64

/-- how far two fractions of one denominator are apart -/
def distance (a b : Nat) : Nat := if a ≤ b then b - a else a - b

/-- the decimal exponent of `num / den`: the greatest `k` with `10 ^ k ≤ num / den`, searched upwards from `k - fuel` -/
def decimalExponent (num den : Nat) : Int :=
  if den ≤ num then ((Nat.repr (num / den)).length : Int) - 1
  else
    let rec find : Nat → Nat → Int
      | 0, k => -(k : Int)
      | fuel + 1, k => if den ≤ num * Nat.pow 10 k then -(k : Int) else find fuel (k + 1)
    find 400 1

/-- the interval of the fractions that round to `m · 2 ^ q`, with the value itself, in quarters of `2 ^ q` -/
structure Interval where
  low : Nat
  mid : Nat
  high : Nat
  inclusive : Bool

def Interval.holds (i : Interval) (x : Nat) : Bool :=
  if i.inclusive then decide (i.low ≤ x ∧ x ≤ i.high) else decide (i.low < x ∧ x < i.high)

def interval (m : Nat) (q : Int) : Interval where
  low := if m = Nat.pow 2 52 ∧ -1074 < q then 4 * m - 1 else 4 * m - 2
  mid := 4 * m
  high := 4 * m + 2
  inclusive := m % 2 == 0

/-- the digits and decimal exponent of `m · 2 ^ q`: of the grids with 1, 2, … 17 digits the first with a point in the
interval, and on it the point nearest to the value -/
def shortestDigits (m : Nat) (q : Int) : Nat × Int :=
  let i := interval m q
  let two : Int := q - 2
  let up := if 0 ≤ two then Nat.pow 2 two.toNat else 1
  let down := if 0 ≤ two then 1 else Nat.pow 2 (-two).toNat
  let k := decimalExponent (i.mid * up) down
  let rec search : Nat → Nat → Nat × Int
    | 0, _ => (m, q)
    | fuel + 1, n =>
      let g : Int := k - n + 1
      let gridUp := if 0 ≤ g then Nat.pow 10 g.toNat else 1
      let gridDown := if 0 ≤ g then 1 else Nat.pow 10 (-g).toNat
      -- every side is brought to the denominator `down * gridDown`
      let scale := up * gridDown
      let scaled : Interval := ⟨i.low * scale, i.mid * scale, i.high * scale, i.inclusive⟩
      let unit := gridUp * down
      let d := scaled.mid / unit
      let below := scaled.holds (d * unit)
      let above := scaled.holds ((d + 1) * unit)
      let toBelow := distance scaled.mid (d * unit)
      let toAbove := distance scaled.mid ((d + 1) * unit)
      if below && (!above || toBelow < toAbove || (toBelow == toAbove && d % 2 == 0)) then (d, g)
      else if above then (d + 1, g)
      else search fuel (n + 1)
  search 17 1

def zeros (n : Nat) : String := String.ofList (List.replicate n '0')

/-- digits without the zeros at their end -/
def trimZeros (digits : List Char) : List Char := (digits.reverse.dropWhile (· == '0')).reverse

/-- a sign and decimal exponent, at least two digits wide -/
def exponentText (e : Int) : String :=
  let n := Nat.repr e.natAbs
  (if e < 0 then "-" else "+") ++ (if n.length < 2 then "0" ++ n else n)

/-- a digit string with its decimal exponent: positional where that is readable, else with an exponent -/
def layout (digits : List Char) (exponent : Int) : String :=
  if exponent < -4 ∨ 16 ≤ exponent then
    match digits with
    | [] => "0"
    | [d] => String.ofList [d] ++ "e" ++ exponentText exponent
    | d :: rest => String.ofList (d :: '.' :: rest) ++ "e" ++ exponentText exponent
  else if exponent < 0 then
    "0." ++ zeros (-exponent - 1).toNat ++ String.ofList digits
  else
    let whole := exponent.toNat + 1
    if digits.length ≤ whole then String.ofList digits ++ zeros (whole - digits.length) ++ ".0"
    else String.ofList (digits.take whole) ++ "." ++ String.ofList (digits.drop whole)

def signText (neg : Bool) : String := if neg then "-" else ""

/-- the shortest text that reads back as the number -/
def shortestText (x : Binary64) : String :=
  match x.value with
  | .nan => "nan"
  | .infinite neg => signText neg ++ "inf"
  | .finite neg 0 _ => signText neg ++ "0.0"
  | .finite neg m q =>
    let r := shortestDigits m q
    let digits := (Nat.repr r.1).toList
    signText neg ++ layout (trimZeros digits) ((digits.length : Int) - 1 + r.2)

/-- a fraction with a fixed number of places -/
def fixedRatio (places : Nat) (neg : Bool) (num den : Nat) : String :=
  let n := Nat.repr (roundDiv (num * Nat.pow 10 places) den)
  let n := zeros (places + 1 - n.length) ++ n
  let cs := n.toList
  let whole := cs.length - places
  signText neg ++ String.ofList (cs.take whole) ++
    (if places = 0 then "" else "." ++ String.ofList (cs.drop whole))

/-- the number with a fixed number of places -/
def fixedText (places : Nat) (x : Binary64) : String :=
  match x.value with
  | .nan => "nan"
  | .infinite neg => signText neg ++ "inf"
  | .finite neg m q =>
    let r := ratio m q
    fixedRatio places neg r.1 r.2

/-- digits and exponent of a fraction rounded to `places` digits behind the first -/
def scientificDigits (places num den : Nat) : Nat × Int :=
  if num = 0 then (0, 0)
  else
    let k := decimalExponent num den
    let shift : Int := places - k
    let n :=
      if 0 ≤ shift then roundDiv (num * Nat.pow 10 shift.toNat) den
      else roundDiv num (den * Nat.pow 10 (-shift).toNat)
    if Nat.pow 10 (places + 1) ≤ n then (n / 10, k + 1) else (n, k)

/-- a fraction part without the zeros at its end, and without the point when nothing is left -/
def trimFraction (s : String) : String :=
  if s.toList.contains '.' then
    let cs := trimZeros s.toList
    String.ofList (if cs.getLast? = some '.' then cs.dropLast else cs)
  else s

def scientificParts (places num den : Nat) : String × Int :=
  let r := scientificDigits places num den
  let n := Nat.repr r.1
  let cs := (n ++ zeros (places + 1 - n.length)).toList
  (String.ofList (cs.take 1) ++ (if places = 0 then "" else "." ++ String.ofList (cs.drop 1)), r.2)

/-- a point behind a text that has none, when it is asked for -/
def withPoint (keep : Bool) (s : String) : String := if keep && !s.toList.contains '.' then s ++ "." else s

/-- a fraction with so many places; `keepPoint` keeps the point when there are none -/
def fixedRatioText (keepPoint : Bool) (places num den : Nat) : String :=
  withPoint keepPoint (fixedRatio places false num den)

def scientificRatioText (keepPoint : Bool) (places num den : Nat) : String :=
  let r := scientificParts places num den
  withPoint keepPoint r.1 ++ "e" ++ exponentText r.2

/-- so many digits, positional unless the exponent is small or has more digits than that; `keepZeros` keeps zeros at the
end -/
def generalRatioText (keepZeros : Bool) (digits num den : Nat) : String :=
  let digits := if digits = 0 then 1 else digits
  let k := (scientificDigits (digits - 1) num den).2
  let trim := fun s => if keepZeros then withPoint true s else trimFraction s
  if -4 ≤ k ∧ k < digits then trim (fixedRatio ((digits : Int) - 1 - k).toNat false num den)
  else
    let r := scientificParts (digits - 1) num den
    trim r.1 ++ "e" ++ exponentText r.2

end Classwright.Binary64
