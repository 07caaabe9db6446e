import LintDebt.Date.Basic
import Mathlib.Algebra.Ring.Nat

/-!
# The calendar counts every day once

Year, month and day name the day they were computed from.

* `LintDebt.Calendar.daysBeforeYear_yearOf`: the year of a day is the one that holds it.
* `LintDebt.Calendar.daysBeforeYear_succ`: a year has the length that its months add up to.
* `LintDebt.Calendar.monthAndDay_eq`: the month and the day in it, found by going through the months.
* `LintDebt.Date.ofYmd?_ymd`: a date is the one with its own year, month and day.
-/

namespace LintDebt

namespace Calendar

/-- The year of a day starts no later than the day, and the next year starts after it. -/
theorem daysBeforeYear_yearOf (day : Int) :
    daysBeforeYear (yearOf day) ≤ day ∧ day < daysBeforeYear (yearOf day + 1) := by
  unfold yearOf
  simp only
  split
  · next h =>
    rw [Int.sub_add_cancel]
    refine ⟨?_, h⟩
    unfold daysBeforeYear
    omega
  · next hstart =>
    split
    · next hend =>
      refine ⟨hend, ?_⟩
      unfold daysBeforeYear
      omega
    · next hend => exact ⟨Int.not_lt.mp hstart, Int.not_le.mp hend⟩

/-- A year is as long as its months together. -/
theorem daysBeforeYear_succ (year : Int) :
    daysBeforeYear (year + 1) = daysBeforeYear year + (monthLengths (isLeap year)).sum := by
  unfold daysBeforeYear
  cases h : isLeap year with
  | true =>
    have hsum : (monthLengths true).sum = 366 := by decide
    rw [hsum]
    simp only [isLeap, Bool.and_eq_true, Bool.or_eq_true, beq_iff_eq, bne_iff_ne] at h
    omega
  | false =>
    have hsum : (monthLengths false).sum = 365 := by decide
    rw [hsum]
    simp only [isLeap, Bool.and_eq_false_iff, Bool.or_eq_false_iff, beq_eq_false_iff_ne,
      bne_eq_false_iff_eq] at h
    omega

/-- A day within some months falls on one of them: the months before it end no later than the day
starts, and the month itself ends after it. -/
theorem monthAndDay_eq (day month : Nat) (lengths : List Nat) (h : day < lengths.sum) :
    ∃ i length, lengths[i]? = some length ∧ (lengths.take i).sum ≤ day ∧
      day < (lengths.take i).sum + length ∧
      monthAndDay day month lengths = (month + i, day - (lengths.take i).sum + 1) := by
  induction lengths generalizing day month with
  | nil => exact absurd h (Nat.not_lt_zero _)
  | cons first rest ih =>
    rw [List.sum_cons] at h
    by_cases hfirst : day < first
    · exact ⟨0, first, rfl, Nat.zero_le _, by simpa using hfirst, by simp [monthAndDay, hfirst]⟩
    · obtain ⟨i, length, hi, hle, hlt, heq⟩ := ih (day - first) (month + 1) (by omega)
      refine ⟨i + 1, length, hi, ?_, ?_, ?_⟩
      · rw [List.take_succ_cons, List.sum_cons]
        omega
      · rw [List.take_succ_cons, List.sum_cons]
        omega
      · rw [monthAndDay, if_neg hfirst, heq, List.take_succ_cons, List.sum_cons]
        congr 1 <;> omega

/-- The days before a month are those of the months before it. -/
theorem daysBeforeMonth_succ (leap : Bool) (i : Nat) :
    daysBeforeMonth leap (1 + i) = ((monthLengths leap).take i).sum := by
  unfold daysBeforeMonth
  rw [Nat.add_sub_cancel_left]
  rfl

end Calendar

open Calendar

namespace Date

/-- The parts of a date: its year holds it, its month is one of that year's, and its day is one of
that month's. -/
theorem ymd_spec (d : Date) :
    ∃ i length, d.ymd.2.1 = 1 + i ∧ (monthLengths (isLeap d.ymd.1))[i]? = some length ∧
      1 ≤ d.ymd.2.2 ∧ d.ymd.2.2 ≤ length ∧
      daysBeforeYear d.ymd.1 + daysBeforeMonth (isLeap d.ymd.1) d.ymd.2.1 + (d.ymd.2.2 - 1) =
        d.day := by
  obtain ⟨hstart, hend⟩ := daysBeforeYear_yearOf d.day
  rw [daysBeforeYear_succ] at hend
  obtain ⟨i, length, hi, hle, hlt, heq⟩ :=
    monthAndDay_eq (d.day - daysBeforeYear (yearOf d.day)).toNat 1
      (monthLengths (isLeap (yearOf d.day))) (by omega)
  have hymd : d.ymd = (yearOf d.day, 1 + i,
      (d.day - daysBeforeYear (yearOf d.day)).toNat -
        ((monthLengths (isLeap (yearOf d.day))).take i).sum + 1) := by
    unfold ymd
    simp only [heq]
  rw [hymd]
  refine ⟨i, length, rfl, hi, by simp, ?_, ?_⟩
  · simp only
    omega
  · simp only [daysBeforeMonth_succ]
    omega

/-- A date is the one with its own year, month and day. -/
theorem ofYmd?_ymd (d : Date) : ofYmd? d.ymd.1 d.ymd.2.1 d.ymd.2.2 = some d := by
  obtain ⟨i, length, hmonth, hi, hpos, hle, hday⟩ := d.ymd_spec
  have hlength : monthLength? (isLeap d.ymd.1) d.ymd.2.1 = some length := by
    rw [monthLength?, if_neg (by omega), hmonth, Nat.add_sub_cancel_left, hi]
  have hin : ¬ (d.ymd.2.2 = 0 ∨ length < d.ymd.2.2) := by omega
  rw [ofYmd?, hlength, Option.bind_eq_bind, Option.bind_some, if_neg hin, hday, ofDay?_day]

/-- The month and the day of a date have at most two digits. -/
theorem ymd_lt (d : Date) : d.ymd.2.1 < 100 ∧ d.ymd.2.2 < 100 := by
  obtain ⟨i, length, hmonth, hi, -, hle, -⟩ := d.ymd_spec
  have hmem := List.mem_of_getElem? hi
  have hlengths : ∀ leap, ∀ length ∈ monthLengths leap, length < 100 := by decide
  have hcount : i < (monthLengths (isLeap d.ymd.1)).length := by
    exact (List.getElem?_eq_some_iff.mp hi).1
  have htwelve : (monthLengths (isLeap d.ymd.1)).length = 12 := rfl
  have hshort := hlengths _ _ hmem
  omega

end Date

end LintDebt
