/-
Strings and whole numbers in JSON text, written and read again.

The reader takes back what the writer wrote, whatever stands behind it: a character from its escape, a pair of surrogates as
one character, a string up to its closing quote, and a whole number up to the first character that cannot continue it.

- `readString_unitEscape`: an escape by four digits, alone or as half of a pair; `readString_letterEscape`: one by a letter;
- `readString_escapeChar`: any character; `readString_escaped`: the characters of a string;
- `Stops`: what cannot continue a whole number; `number?_repr`, `scalar?_repr`: whole numbers without and with their sign.
-/
import Mathlib.Data.List.Nodup
import Classwright.Json.Printer
import Classwright.Json.Reader

namespace Classwright.Json

/-! ## Strings -/

theorem hexValue?_hexDigit (n : Nat) : hexValue? (Text.hexDigit n) = some (n % 16) := by
  have hall : ∀ k, k < 16 → hexValue? (if k < 10 then Char.ofNat (48 + k) else Char.ofNat (87 + k)) = some k := by decide
  exact hall (n % 16) (Nat.mod_lt n (by omega))

theorem hexNumber?_hexDigits {n : Nat} (h : n < 0x10000) : hexNumber? (Text.hexDigits 4 n) = some n := by
  show (do
    let a ← hexValue? (Text.hexDigit (n / 16 / 16 / 16))
    let b ← hexValue? (Text.hexDigit (n / 16 / 16))
    let c ← hexValue? (Text.hexDigit (n / 16))
    let d ← hexValue? (Text.hexDigit n)
    pure (((a * 16 + b) * 16 + c) * 16 + d)) = some n
  rw [hexValue?_hexDigit, hexValue?_hexDigit, hexValue?_hexDigit, hexValue?_hexDigit]
  show some _ = some n
  congr 1
  omega

theorem length_hexDigits (n : Nat) : (Text.hexDigits 4 n).length = 4 := rfl

/-- a character read before what follows it -/
def before (c : Char) (r : Except Failure (List Char × List Char)) : Except Failure (List Char × List Char) :=
  r.map fun p => (c :: p.1, p.2)

variable {opened more rest : List Char} {fuel : Nat}

/-- an escape by four digits is read as a character of its own, or as half of a pair -/
theorem readString_unitEscape {n : Nat} (h : n < 0x10000) (hmore : more ≠ []) :
    readString opened (fuel + 1) (unitEscape n ++ more) =
      match (if isHigh n then lowHalf? more else none) with
      | some (low, after) => before (Char.ofNat (joinPair n low)) (readString opened fuel after)
      | none => before (if isHigh n || isLow n then '\uFFFD' else Char.ofNat n) (readString opened fuel more) := by
  have hlength := length_hexDigits n
  have htake : (Text.hexDigits 4 n ++ more).take 4 = Text.hexDigits 4 n := List.take_left' hlength
  have hdrop : (Text.hexDigits 4 n ++ more).drop 4 = more := List.drop_left' hlength
  have hlong : ¬ ((Text.hexDigits 4 n ++ more).take 5).length < 5 := by
    have := List.length_pos_of_ne_nil hmore
    rw [List.length_take, List.length_append, hlength]
    omega
  show readString opened (fuel + 1) ('\\' :: 'u' :: (Text.hexDigits 4 n ++ more)) = _
  rw [readString, if_neg (by decide), if_pos rfl]
  dsimp only
  rw [if_neg hlong, htake, hexNumber?_hexDigits h, hdrop]
  dsimp only
  cases (if isHigh n then lowHalf? more else none) with
  | none => cases readString opened fuel more <;> rfl
  | some pair =>
    obtain ⟨low, after⟩ := pair
    dsimp only
    cases readString opened fuel after <;> rfl

theorem lowHalf?_unitEscape {n : Nat} (h : n < 0x10000) (hlow : isLow n = true) :
    lowHalf? (unitEscape n ++ more) = some (n, more) := by
  have hlength := length_hexDigits n
  show lowHalf? ('\\' :: 'u' :: (Text.hexDigits 4 n ++ more)) = _
  rw [lowHalf?, List.take_left' hlength, hexNumber?_hexDigits h]
  dsimp only
  rw [if_pos hlow]
  exact congrArg (fun rest => some (n, rest)) (List.drop_left' hlength)

/-- no character is a surrogate -/
theorem not_surrogate (c : Char) : isHigh c.toNat = false ∧ isLow c.toNat = false := by
  have hvalid : c.toNat < 0xD800 ∨ 0xDFFF < c.toNat ∧ c.toNat < 0x110000 := c.valid
  unfold isHigh isLow
  exact ⟨decide_eq_false (by omega), decide_eq_false (by omega)⟩

/-- an escape by a letter -/
theorem readString_letterEscape {c e : Char} (hu : e ≠ 'u') (he : letterEscape? e = some c) :
    readString opened (fuel + 1) (['\\', e] ++ more) = before c (readString opened fuel more) := by
  show readString opened (fuel + 1) ('\\' :: e :: more) = _
  rw [readString.eq_def]
  dsimp only
  rw [if_neg (by decide), if_pos rfl]
  split
  · next heq => cases heq
  · next heq => exact absurd (List.cons.inj heq).1 hu
  · next heq =>
    obtain ⟨rfl, rfl⟩ := List.cons.inj heq
    rw [he]
    dsimp only
    cases readString opened fuel more <;> rfl

/-- **One character** is read back from its escape. -/
theorem readString_escapeChar (c : Char) (hmore : more ≠ []) :
    readString opened (fuel + 1) (escapeChar c ++ more) = before c (readString opened fuel more) := by
  have hvalid : c.toNat < 0x110000 := by
    have : c.toNat < 0xD800 ∨ 0xDFFF < c.toNat ∧ c.toNat < 0x110000 := c.valid
    omega
  unfold escapeChar
  split_ifs with h₁ h₂ h₃ h₄ h₅ h₆ h₇ hplain hunit
  · exact readString_letterEscape (by decide) (by rw [h₁]; rfl)
  · exact readString_letterEscape (by decide) (by rw [h₂]; rfl)
  · exact readString_letterEscape (by decide) (by rw [h₃]; rfl)
  · exact readString_letterEscape (by decide) (by rw [h₄]; rfl)
  · exact readString_letterEscape (by decide) (by rw [h₅]; rfl)
  · exact readString_letterEscape (by decide) (by rw [h₆]; rfl)
  · exact readString_letterEscape (by decide) (by rw [h₇]; rfl)
  · show readString opened (fuel + 1) (c :: more) = _
    rw [readString.eq_def]
    dsimp only
    rw [if_neg h₁, if_neg h₂, if_neg (by omega)]
    cases readString opened fuel more <;> rfl
  · rw [readString_unitEscape hunit hmore]
    simp only [not_surrogate, Bool.false_eq_true, if_false, Bool.or_false, Char.ofNat_toNat]
  · -- a pair of surrogates
    have hhigh : isHigh (0xD800 + (c.toNat - 0x10000) / 0x400) = true := decide_eq_true (by omega)
    have hlow : isLow (0xDC00 + (c.toNat - 0x10000) % 0x400) = true := decide_eq_true (by omega)
    have hpair : joinPair (0xD800 + (c.toNat - 0x10000) / 0x400) (0xDC00 + (c.toNat - 0x10000) % 0x400) = c.toNat := by
      unfold joinPair
      omega
    dsimp only
    rw [List.append_assoc, readString_unitEscape (by omega) (by simp [unitEscape]), hhigh, if_pos rfl,
      lowHalf?_unitEscape (by omega) hlow]
    dsimp only
    rw [hpair, Char.ofNat_toNat]

theorem readString_escaped (cs : List Char) (hfuel : cs.length < fuel) :
    readString opened fuel (cs.flatMap escapeChar ++ '"' :: rest) = .ok (cs, rest) := by
  induction cs generalizing fuel with
  | nil =>
    obtain ⟨fuel, rfl⟩ := Nat.exists_eq_succ_of_ne_zero (show fuel ≠ 0 by omega)
    rfl
  | cons c cs ih =>
    rw [List.length_cons] at hfuel
    obtain ⟨fuel, rfl⟩ := Nat.exists_eq_succ_of_ne_zero (show fuel ≠ 0 by omega)
    rw [List.flatMap_cons, List.append_assoc, readString_escapeChar c (by simp), ih (by omega)]
    rfl

theorem toList_encodeString (s : String) : (encodeString s).toList = '"' :: (s.toList.flatMap escapeChar ++ ['"']) :=
  String.toList_ofList

theorem length_le_escaped (cs : List Char) : cs.length ≤ (cs.flatMap escapeChar).length := by
  induction cs with
  | nil => exact Nat.le_refl 0
  | cons c cs ih =>
    have hpositive : 0 < (escapeChar c).length := by
      unfold escapeChar
      split_ifs <;> exact Nat.succ_pos _
    rw [List.flatMap_cons, List.length_append, List.length_cons]
    omega

/-! ## Whole numbers -/

/-- what cannot continue a whole number -/
def Stops (cs : List Char) : Prop := ∀ c ∈ cs.head?, c.isDigit = false ∧ c ≠ '.' ∧ c ≠ 'e' ∧ c ≠ 'E'

theorem stops_nil : Stops [] := nofun

theorem stops_cons {c : Char} (h : c.isDigit = false ∧ c ≠ '.' ∧ c ≠ 'e' ∧ c ≠ 'E') (cs : List Char) : Stops (c :: cs) := by
  rintro _ ⟨⟩
  exact h

theorem spanDigits_append {ds : List Char} (hds : ∀ c ∈ ds, c.isDigit = true) (hrest : Stops rest) :
    spanDigits (ds ++ rest) = (ds, rest) := by
  unfold spanDigits
  rw [List.takeWhile_append_of_pos hds, List.dropWhile_append_of_pos hds]
  cases rest with
  | nil => simp
  | cons c cs =>
    have hc := (hrest c rfl).1
    rw [List.takeWhile_cons_of_neg (by simp [hc]), List.dropWhile_cons_of_neg (by simp [hc]), List.append_nil]

theorem fraction?_of_stops (h : Stops rest) : fraction? rest = none := by
  unfold fraction?
  split
  · exact absurd rfl (h '.' rfl).2.1
  · rfl

theorem exponent?_of_stops (h : Stops rest) : exponent? rest = none := by
  cases rest with
  | nil => rfl
  | cons c cs =>
    obtain ⟨-, -, hlower, hupper⟩ := h c rfl
    unfold exponent?
    simp [hlower, hupper]

theorem digitsValue_repr (n : Nat) : digitsValue (Nat.repr n).toList = n := by
  have hvalue := Nat.ofDigitChars_ten_toDigits (n := n)
  rw [Nat.ofDigitChars_eq_foldl] at hvalue
  simp only [Nat.mul_comm] at hvalue
  rw [Nat.toList_repr]
  exact hvalue

theorem isDigit_of_mem_repr {n : Nat} {c : Char} (h : c ∈ (Nat.repr n).toList) : c.isDigit = true := by
  rw [Nat.toList_repr] at h
  exact Nat.isDigit_of_mem_toDigits (by omega) (Nat.le_refl 10) h

/-- the digits of a number begin with a zero only when there is no other -/
theorem exists_repr (n : Nat) : ∃ c cs, (Nat.repr n).toList = c :: cs ∧ (c = '0' → cs = []) := by
  have hpositive : ∀ n, 0 < n → ∃ c cs, Nat.toDigits 10 n = c :: cs ∧ c ≠ '0' := by
    intro n
    induction n using Nat.strongRecOn with
    | ind n ih =>
      intro hn
      by_cases hsmall : n < 10
      · refine ⟨_, _, Nat.toDigits_of_lt_base hsmall, ?_⟩
        have hall : ∀ k, k < 10 → 0 < k → Nat.digitChar k ≠ '0' := by decide
        exact hall n hsmall hn
      · obtain ⟨c, cs, hdigits, hc⟩ := ih (n / 10) (by omega) (by omega)
        rw [Nat.toDigits_of_base_le (by omega) (by omega), hdigits]
        exact ⟨c, _, rfl, hc⟩
  rw [Nat.toList_repr]
  cases n with
  | zero => exact ⟨'0', [], rfl, fun _ => rfl⟩
  | succ n =>
    obtain ⟨c, cs, hdigits, hc⟩ := hpositive (n + 1) (Nat.succ_pos n)
    exact ⟨c, cs, hdigits, fun h => absurd h hc⟩

/-- what is written of a whole number begins with a digit or a sign -/
theorem exists_intRepr (n : Int) : ∃ c cs, (Int.repr n).toList = c :: cs ∧ (c.isDigit = true ∨ c = '-') := by
  cases n with
  | ofNat k =>
    obtain ⟨c, cs, hcs, -⟩ := exists_repr k
    exact ⟨c, cs, hcs, Or.inl (isDigit_of_mem_repr (n := k) (by rw [hcs]; exact List.mem_cons_self))⟩
  | negSucc k => exact ⟨'-', (Nat.repr (k + 1)).toList, String.toList_append, Or.inr rfl⟩

/-- **A whole number** is read back from its digits. -/
theorem number?_repr (neg : Bool) (n : Nat) (hrest : Stops rest) :
    number? neg ((Nat.repr n).toList ++ rest) = some (.int (Binary64.signed neg n), rest) := by
  obtain ⟨c, cs, hdigits, hzero⟩ := exists_repr n
  have hspan := spanDigits_append (fun c hc => isDigit_of_mem_repr (n := n) hc) hrest
  have hvalue := digitsValue_repr n
  have hc : c.isDigit = true := isDigit_of_mem_repr (n := n) (by rw [hdigits]; exact List.mem_cons_self)
  rw [hdigits] at hspan hvalue ⊢
  rw [List.cons_append] at hspan ⊢
  unfold number?
  dsimp only
  by_cases h0 : c = '0'
  · rw [if_pos h0]
    rw [hzero h0] at hvalue ⊢
    dsimp only
    rw [List.nil_append, fraction?_of_stops hrest, Option.elim_none, exponent?_of_stops hrest]
    dsimp only
    rw [hvalue]
  · rw [if_neg h0, if_pos hc, hspan]
    dsimp only
    rw [fraction?_of_stops hrest, Option.elim_none, exponent?_of_stops hrest]
    dsimp only
    rw [hvalue]

/-- no word begins with a digit, or with a sign and a digit -/
theorem word?_digit {c : Char} (hc : c.isDigit = true) (cs : List Char) :
    word? (c :: cs) = none ∧ word? ('-' :: c :: cs) = none := by
  have hne : ∀ {d : Char}, d.isDigit = false → ¬ d = c := by
    rintro d hd rfl
    rw [hd] at hc
    cases hc
  have hn := hne (d := 'n') rfl
  have ht := hne (d := 't') rfl
  have hf := hne (d := 'f') rfl
  have hN := hne (d := 'N') rfl
  have hI := hne (d := 'I') rfl
  have hm := hne (d := '-') rfl
  constructor <;> simp [word?, words, Text.dropPrefix?, hn, ht, hf, hN, hI, hm]

theorem scalar?_repr (n : Int) (hrest : Stops rest) :
    scalar? ((Int.repr n).toList ++ rest) = some (.int n, rest) := by
  have hdigits : ∀ k : Nat, ∃ c cs, (Nat.repr k).toList ++ rest = c :: cs ∧ c.isDigit = true := by
    intro k
    obtain ⟨c, cs, hcs, -⟩ := exists_repr k
    exact ⟨c, cs ++ rest, by rw [hcs]; rfl, isDigit_of_mem_repr (n := k) (by rw [hcs]; exact List.mem_cons_self)⟩
  cases n with
  | ofNat k =>
    have hnumber := number?_repr false k hrest
    obtain ⟨c, cs, hcs, hc⟩ := hdigits k
    have hsign : c ≠ '-' := by
      rintro rfl
      cases hc
    show scalar? ((Nat.repr k).toList ++ rest) = _
    rw [hcs] at hnumber ⊢
    unfold scalar?
    rw [(word?_digit hc cs).1]
    dsimp only
    split
    · next heq => exact absurd (List.cons.inj heq).1 hsign
    · exact hnumber
  | negSucc k =>
    have hnumber := number?_repr true (k + 1) hrest
    obtain ⟨c, cs, hcs, hc⟩ := hdigits (k + 1)
    have htext : (Int.repr (.negSucc k)).toList ++ rest = '-' :: ((Nat.repr (k + 1)).toList ++ rest) := by
      show ("-" ++ Nat.repr (k + 1)).toList ++ rest = _
      rw [String.toList_append]
      rfl
    rw [htext, hcs]
    rw [hcs] at hnumber
    unfold scalar?
    rw [(word?_digit hc cs).2]
    exact hnumber

end Classwright.Json
