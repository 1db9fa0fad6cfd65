/-
Double-precision numbers by their bits, with exact arithmetic on naturals in place of floating-point operations.

- `Binary64.value`: what the bits stand for: not a number, an infinity, or `m · 2 ^ q` with a sign;
- `Binary64.ofDecimal`: the number nearest to a decimal, a tie going to the even mantissa;
- `Binary64.less`, `Binary64.toInt?`: order and whole values.

Powers are written with `Nat.pow`, which is the same function whatever else is imported.
-/

namespace Classwright

/-- a double-precision number, given by its 64 bits -/
structure Binary64 where
  bits : UInt64
  deriving DecidableEq, Repr

namespace Binary64

/-- the value of a bit pattern: `finite neg m q` stands for `m · 2 ^ q`, with a minus sign when `neg` holds -/
inductive Value where
  | nan
  | infinite (neg : Bool)
  | finite (neg : Bool) (m : Nat) (q : Int)

def isNegative (x : Binary64) : Bool := decide (Nat.pow 2 63 ≤ x.bits.toNat)

def exponentField (x : Binary64) : Nat := x.bits.toNat / Nat.pow 2 52 % Nat.pow 2 11

def fractionField (x : Binary64) : Nat := x.bits.toNat % Nat.pow 2 52

def value (x : Binary64) : Value :=
  let neg := x.isNegative
  let e := x.exponentField
  let f := x.fractionField
  if e = 2047 then (if f = 0 then .infinite neg else .nan)
  else if e = 0 then .finite neg f (-1074)
  else .finite neg (Nat.pow 2 52 + f) (e - 1075)

/-- the bits of a sign, an exponent field and a fraction field -/
def ofFields (neg : Bool) (e f : Nat) : Binary64 :=
  ⟨UInt64.ofNat ((if neg then Nat.pow 2 63 else 0) + e * Nat.pow 2 52 + f)⟩

def zero : Binary64 := ⟨0⟩

/-- quotient to the nearest whole number, a tie going to the even one -/
def roundDiv (num den : Nat) : Nat :=
  let d := num / den
  let r := num % den
  if 2 * r < den then d
  else if den < 2 * r then d + 1
  else if d % 2 = 0 then d else d + 1

/-- `num / den` as a fraction that is scaled by `2 ^ (-q)` -/
def scaleDown (num den : Nat) (q : Int) : Nat × Nat :=
  if 0 ≤ q then (num, den * Nat.pow 2 q.toNat) else (num * Nat.pow 2 (-q).toNat, den)

/-- the number nearest to `num / den` -/
def ofRatio (neg : Bool) (num den : Nat) : Binary64 :=
  if num = 0 then ofFields neg 0 0
  else
    let guess : Int := (num.log2 : Int) - den.log2 - 52
    let wide := fun (q : Int) => let s := scaleDown num den q; s.1 / s.2
    let q := if wide guess < Nat.pow 2 52 then guess - 1 else guess
    let q := if q < -1074 then -1074 else q
    let s := scaleDown num den q
    let m := roundDiv s.1 s.2
    let (m, q) := if m = Nat.pow 2 53 then (Nat.pow 2 52, q + 1) else (m, q)
    if 971 < q then ofFields neg 2047 0
    else if m < Nat.pow 2 52 then ofFields neg 0 m
    else ofFields neg (q + 1075).toNat (m - Nat.pow 2 52)

/-- the number nearest to `digits · 10 ^ exponent`; exponents far outside the range give zero or an infinity at once -/
def ofDecimal (neg : Bool) (digits : Nat) (exponent : Int) : Binary64 :=
  if digits = 0 then ofFields neg 0 0
  else
    let size : Int := (Nat.repr digits).length + exponent
    if 400 < size then ofFields neg 2047 0
    else if size < -400 then ofFields neg 0 0
    else if 0 ≤ exponent then ofRatio neg (digits * Nat.pow 10 exponent.toNat) 1
    else ofRatio neg digits (Nat.pow 10 (-exponent).toNat)

/-- the number nearest to a whole number -/
def ofInt (n : Int) : Binary64 := ofRatio (decide (n < 0)) n.natAbs 1

/-- a finite number as a fraction: numerator and denominator -/
def ratio (m : Nat) (q : Int) : Nat × Nat :=
  if 0 ≤ q then (m * Nat.pow 2 q.toNat, 1) else (m, Nat.pow 2 (-q).toNat)

def signed (neg : Bool) (n : Nat) : Int := if neg then -(n : Int) else n

/-- the whole number that a finite number without a fractional part stands for -/
def toInt? (x : Binary64) : Option Int :=
  match x.value with
  | .finite neg m q =>
    let r := ratio m q
    if r.1 % r.2 = 0 then some (signed neg (r.1 / r.2)) else none
  | _ => none

/-- the greatest whole number up to so many times a finite number -/
def floorTimes? (factor : Nat) (x : Binary64) : Option Int :=
  match x.value with
  | .finite neg m q =>
    let r := ratio m q
    some (Int.fdiv (signed neg (r.1 * factor)) r.2)
  | _ => none

def isFinite (x : Binary64) : Bool :=
  match x.value with
  | .finite .. => true
  | _ => false

/-- whether a number is zero, of either sign -/
def isZero (x : Binary64) : Bool :=
  match x.value with
  | .finite _ m _ => m == 0
  | _ => false

/-- whether `a < b`; nothing is less than or greater than what is not a number -/
def less (a b : Binary64) : Bool :=
  match a.value, b.value with
  | .finite s m q, .finite t n r =>
    let x := ratio m q
    let y := ratio n r
    decide (signed s x.1 * y.2 < signed t y.1 * x.2)
  | .infinite s, .finite .. => s
  | .finite .., .infinite t => !t
  | .infinite s, .infinite t => s && !t
  | _, _ => false

end Binary64

end Classwright
