/-
The moments that have a date in an archive.

A day is in the year that is found for it, so a moment has a date exactly from the start of the first year to the end of the
last, and then date and time of day fit into their bytes.

- `Calendar.yearOf_spec`, `le_yearOf_iff`, `yearOf_le_iff`: the year of a day;
- `Calendar.month_day_le`: no month has more days than there are;
- `Archive.isDatable_iff`: the moments with a date; `stamps_fit`: it fits.
-/
import Mathlib.Algebra.Ring.Nat
import Mathlib.Tactic.SplitIfs
import Classwright.Archive.Basic

namespace Classwright

namespace Calendar

theorem daysBefore_mono {a b : Int} (h : a ≤ b) : daysBefore a ≤ daysBefore b := by
  unfold daysBefore
  omega

/-- 400 years have 146097 days, and no year begins far from where it would on average -/
theorem daysBefore_near (year : Int) :
    146097 * year - 396 ≤ 400 * daysBefore year ∧ 400 * daysBefore year ≤ 146097 * year + 699 := by
  unfold daysBefore
  omega

/-- **A day is in its year.** -/
theorem yearOf_spec (day : Int) : daysBefore (yearOf day) ≤ day ∧ day < daysBefore (yearOf day + 1) := by
  have hguess : 146097 * (400 * day / 146097) ≤ 400 * day ∧ 400 * day < 146097 * (400 * day / 146097) + 146097 := by omega
  unfold yearOf
  dsimp only
  generalize 400 * day / 146097 = guess at *
  -- the guess is at most one year off
  have hbefore := daysBefore_near (guess - 1)
  have hafter := daysBefore_near (guess + 2)
  split_ifs with h h'
  · rw [Int.sub_add_cancel]
    omega
  · rw [Int.add_assoc, show (1 + 1 : Int) = 2 from rfl]
    omega
  · omega

theorem le_yearOf_iff {day year : Int} : year ≤ yearOf day ↔ daysBefore year ≤ day := by
  obtain ⟨hfirst, hlast⟩ := yearOf_spec day
  constructor
  · exact fun h => Int.le_trans (daysBefore_mono h) hfirst
  · refine fun h => Int.not_lt.1 fun hlt => ?_
    have hmono := daysBefore_mono (show yearOf day + 1 ≤ year by omega)
    omega

theorem yearOf_le_iff {day year : Int} : yearOf day ≤ year ↔ day < daysBefore (year + 1) := by
  rw [← Int.lt_add_one_iff, ← Int.not_le, le_yearOf_iff, Int.not_le]

/-- days of a year fall into its months -/
theorem monthAndDay_le {lengths : List Nat} (h : ∀ length ∈ lengths, length ≤ 31) {gone : Nat} (hgone : gone < lengths.sum) :
    (monthAndDay lengths gone).1 ≤ lengths.length ∧ (monthAndDay lengths gone).2 ≤ 31 := by
  induction lengths generalizing gone with
  | nil => cases hgone
  | cons length rest ih =>
    have hlength := h length List.mem_cons_self
    rw [List.sum_cons] at hgone
    unfold monthAndDay
    split_ifs with hin
    · exact ⟨Nat.le_add_left 1 _, by dsimp only; omega⟩
    · obtain ⟨hmonth, hday⟩ := ih (fun l hl => h l (List.mem_cons_of_mem length hl))
        (show gone - length < rest.sum by omega)
      exact ⟨Nat.succ_le_succ hmonth, hday⟩

/-- **No date is out of range.** -/
theorem month_day_le (time : Int) : (readingAt time).month ≤ 12 ∧ (readingAt time).day ≤ 31 := by
  obtain ⟨day, hday⟩ : ∃ day, day = time / 1000000 / 86400 + daysBefore 1970 := ⟨_, rfl⟩
  obtain ⟨hfirst, hlast⟩ := yearOf_spec day
  have hlength : 365 ≤ daysBefore (yearOf day + 1) - daysBefore (yearOf day) ∧
      daysBefore (yearOf day + 1) - daysBefore (yearOf day) ≤ 366 := by
    unfold daysBefore
    omega
  have hmonths : ∀ length ∈ monthLengths (yearOf day), length ≤ 31 := by
    simp only [monthLengths, List.forall_mem_cons]
    refine ⟨by omega, by omega, ?_⟩
    decide
  have hsum : (monthLengths (yearOf day)).sum = (daysBefore (yearOf day + 1) - daysBefore (yearOf day)).toNat := by
    simp only [monthLengths, List.sum_cons, List.sum_nil]
    omega
  have hgone : (day - daysBefore (yearOf day)).toNat < (monthLengths (yearOf day)).sum := by
    rw [hsum]
    omega
  have hle := monthAndDay_le hmonths hgone
  unfold readingAt
  dsimp only
  rw [← hday]
  exact hle

end Calendar

namespace Archive

open Calendar

/-- the first moment that is too late for a date -/
def pastMoment : Int := 4354819200000000

/-- **The moments that have a date.** -/
theorem isDatable_iff {time : Int} : isDatable time = true ↔ firstMoment ≤ time ∧ time < pastMoment := by
  have hfirst : daysBefore firstYear = daysBefore 1970 + 3652 := by decide
  have hpast : daysBefore (lastYear + 1) = daysBefore 1970 + 50403 := by decide
  unfold isDatable readingAt
  dsimp only
  rw [decide_eq_true_eq, le_yearOf_iff, yearOf_le_iff, hfirst, hpast]
  unfold firstMoment pastMoment
  omega

/-- date and time of day fit into two bytes each -/
theorem stamps_fit {time : Int} (h : isDatable time = true) :
    dateStamp (readingAt time) < Nat.pow 256 2 ∧ timeStamp (readingAt time) < Nat.pow 256 2 := by
  have hlimit : Nat.pow 256 2 = 65536 := rfl
  obtain ⟨hmonth, hday⟩ := month_day_le time
  have hyear := of_decide_eq_true h
  have hclock : (readingAt time).hour < 24 ∧ (readingAt time).minute < 60 ∧ (readingAt time).second < 60 := by
    unfold readingAt
    dsimp only
    omega
  unfold firstYear lastYear at hyear
  unfold dateStamp timeStamp firstYear
  omega

end Archive

end Classwright
