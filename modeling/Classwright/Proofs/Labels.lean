/-
What becomes of a label.

- `alphanumeric_of_mem_className`: a class name is made of letters and digits without accents;
- `not_alphanumeric_of_className_empty`: a label without a class name has none of them;
- `identifier_of_ne`, `identifier_of_eq`: the first kind of label is written as its class name, the second as it is.
-/
import Mathlib.Data.List.Infix
import Classwright.Naming

namespace Classwright.Naming

/-! ## Letters and digits by their code points -/

theorem isUpper_iff {c : Char} : c.isUpper = true ↔ 65 ≤ c.toNat ∧ c.toNat ≤ 90 := decide_eq_true_iff

theorem isLower_iff {c : Char} : c.isLower = true ↔ 97 ≤ c.toNat ∧ c.toNat ≤ 122 :=
  Bool.and_eq_true_iff.trans (and_congr decide_eq_true_iff decide_eq_true_iff)

theorem isDigit_iff {c : Char} : c.isDigit = true ↔ 48 ≤ c.toNat ∧ c.toNat ≤ 57 :=
  Bool.and_eq_true_iff.trans (and_congr decide_eq_true_iff decide_eq_true_iff)

theorem toUpper_of_not_isLower {c : Char} (h : ¬ c.isLower = true) : c.toUpper = c :=
  dif_neg (mt isLower_iff.2 h)

theorem toNat_toUpper {c : Char} (h : c.isLower = true) : c.toUpper.toNat + 32 = c.toNat := by
  have hrange := isLower_iff.1 h
  have hletter : 'a'.val ≤ c.val ∧ c.val ≤ 'z'.val := hrange
  have hval : c.toUpper.val.toNat = (c.val.toNat + 4294967264) % 4294967296 := by
    rw [show c.toUpper = ⟨c.val + ('A'.val - 'a'.val), _⟩ from dif_pos hletter, UInt32.toNat_add]
    rfl
  rw [Char.toNat_val, Char.toNat_val] at hval
  omega

theorem isAlpha_toUpper {c : Char} (h : c.isAlpha = true) : c.toUpper.isAlpha = true := by
  refine Bool.or_eq_true_iff.2 ?_
  by_cases hl : c.isLower = true
  · left
    have hrange := isLower_iff.1 hl
    have hshift := toNat_toUpper hl
    exact isUpper_iff.2 ⟨by omega, by omega⟩
  · rw [toUpper_of_not_isLower hl]
    exact Bool.or_eq_true_iff.1 h

theorem toUpper_of_isDigit {c : Char} (h : c.isDigit = true) : c.toUpper = c := by
  refine toUpper_of_not_isLower fun hl => ?_
  have hdigit := isDigit_iff.1 h
  have hlower := isLower_iff.1 hl
  omega

theorem isAsciiAlphanumeric_toUpper {c : Char} (h : isAsciiAlphanumeric c = true) :
    isAsciiAlphanumeric c.toUpper = true := by
  unfold isAsciiAlphanumeric at h ⊢
  rcases Bool.or_eq_true_iff.1 h with h | h
  · rw [isAlpha_toUpper h, Bool.true_or]
  · rw [toUpper_of_isDigit h, h, Bool.or_true]

/-! ## Labels -/

theorem alphanumeric_of_mem_className {label : String} {c : Char} (h : c ∈ (className label).toList) :
    isAsciiAlphanumeric c = true := by
  unfold className at h
  rw [String.toList_ofList] at h
  have hkept : ∀ c ∈ label.toList.filter isAsciiAlphanumeric, isAsciiAlphanumeric c = true :=
    fun c hc => (List.mem_filter.1 hc).2
  cases hl : label.toList.filter isAsciiAlphanumeric with
  | nil => rw [hl] at h; cases h
  | cons first rest =>
    rw [hl] at h hkept
    rcases List.mem_cons.1 h with rfl | h
    · exact isAsciiAlphanumeric_toUpper (hkept first List.mem_cons_self)
    · exact hkept c (List.mem_cons_of_mem _ h)

theorem not_alphanumeric_of_className_empty {label : String} (h : className label = "") {c : Char}
    (hc : c ∈ label.toList) : isAsciiAlphanumeric c = false := by
  have hnil : capitalize (label.toList.filter isAsciiAlphanumeric) = [] := by
    rw [← String.toList_ofList (l := capitalize (label.toList.filter isAsciiAlphanumeric))]
    exact String.toList_eq_nil_iff.2 h
  cases hl : label.toList.filter isAsciiAlphanumeric with
  | nil => exact Bool.eq_false_iff.2 fun ht => by simpa [hl] using List.mem_filter.2 ⟨hc, ht⟩
  | cons first rest => rw [hl] at hnil; cases hnil

theorem identifier_of_ne {label : String} (h : className label ≠ "") : identifier label = className label := by
  unfold identifier
  rw [if_neg (mt String.isEmpty_iff.1 h)]

theorem identifier_of_eq {label : String} (h : className label = "") : identifier label = label := by
  unfold identifier
  rw [if_pos (String.isEmpty_iff.2 h)]

theorem slash_not_mem_className (label : String) : '/' ∉ (className label).toList := fun h =>
  absurd (alphanumeric_of_mem_className h) (by decide)

end Classwright.Naming
