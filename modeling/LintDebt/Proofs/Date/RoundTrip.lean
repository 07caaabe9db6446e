import LintDebt.Date.Text
import LintDebt.Proofs.Date.Calendar
import LintDebt.Proofs.Text.Digits

/-!
# Written dates read back

* `LintDebt.Date.digits?_padded`: a padded number reads back in front of a text that starts no
  digit.
* `LintDebt.Date.year?_renderYear`: a year reads back, with its sign or without.
* `LintDebt.Date.parse?_render`: the text of a date denotes that date.
-/

namespace LintDebt.Date

open LintDebt.Text

/-! ## Numbers -/

/-- Every character of a padded number is a digit. -/
theorem isDigit_of_mem_padded {width n : Nat} {c : Char} (h : c ∈ padded width n) :
    c.isDigit = true := by
  unfold padded at h
  rcases List.mem_append.mp h with h | h
  · rw [(List.mem_replicate.mp h).2]
    rfl
  · exact isDigit_of_mem_decimalDigits h

/-- A padded number has the value of the number. -/
theorem digitsValue_padded (width n : Nat) : digitsValue (padded width n) = n := by
  unfold padded digitsValue
  rw [Nat.ofDigitChars_append, Nat.ofDigitChars_replicate_zero, Nat.mul_zero]
  exact digitsValue_decimalDigits n

/-- A padded number has at least one digit. -/
theorem padded_ne_nil (width n : Nat) : padded width n ≠ [] := by
  unfold padded
  exact List.append_ne_nil_of_right_ne_nil _ (decimalDigits_ne_nil n)

/-- A number that fits is padded to exactly the width. -/
theorem length_padded {width n : Nat} (hw : 0 < width) (h : n < 10 ^ width) :
    (padded width n).length = width := by
  have hle := length_decimalDigits_le hw h
  unfold padded
  rw [List.length_append, List.length_replicate]
  omega

/-- A padded number reads back, where no bound on its digits cuts it short. -/
theorem digits?_padded (most : Option Nat) (width n : Nat) {rest : List Char}
    (hm : ∀ k, most = some k → (padded width n).length ≤ k) (hr : StartsNoDigit rest) :
    digits? most (padded width n ++ rest) = some (n, rest) := by
  have htake : takeDigits (padded width n ++ rest) = (padded width n, rest) :=
    takeDigits_append_of_digits (fun _ => isDigit_of_mem_padded) hr
  unfold digits?
  cases most with
  | none => simp [htake, padded_ne_nil, digitsValue_padded]
  | some k =>
    have hk := List.take_of_length_le (hm k rfl)
    simp [htake, hk, padded_ne_nil, digitsValue_padded]

/-- The first character of a padded number is neither a sign nor a blank. -/
theorem exists_padded_eq_cons (width n : Nat) :
    ∃ c cs, padded width n = c :: cs ∧ c ≠ '-' ∧ c ≠ '+' ∧ isBlank c = false := by
  obtain ⟨c, cs, hcs⟩ := List.exists_cons_of_ne_nil (padded_ne_nil width n)
  have hdigit : c.isDigit = true := isDigit_of_mem_padded (hcs ▸ List.mem_cons_self)
  have hrange := Char.isDigit_iff_toNat.mp hdigit
  refine ⟨c, cs, hcs, ?_, ?_, ?_⟩
  · rintro rfl
    cases hdigit
  · rintro rfl
    cases hdigit
  · have h₁ : '0'.toNat = 48 := rfl
    have h₂ : '9'.toNat = 57 := rfl
    simp [isBlank]
    omega

/-! ## Dates -/

/-- A year reads back, with its sign or without. -/
theorem year?_renderYear (year : Int) {rest : List Char} (hr : StartsNoDigit rest) :
    year? (renderYear year ++ rest) = some (year, rest) := by
  unfold renderYear
  split
  · next hfour =>
    have hlength : (padded 4 year.toNat).length = 4 := length_padded (by decide) (by omega)
    have hread := digits?_padded (some 4) 4 year.toNat
      (fun k hk => by cases hk; exact Nat.le_of_eq hlength) hr
    obtain ⟨c, cs, hcs, hminus, hplus, -⟩ := exists_padded_eq_cons 4 year.toNat
    have hyear : (year.toNat : Int) = year := by omega
    rw [hcs, List.cons_append] at hread ⊢
    rw [year?.eq_def]
    split
    · next e =>
      cases e
      exact absurd rfl hminus
    · next e =>
      cases e
      exact absurd rfl hplus
    · rw [hread]
      simp [hyear]
  · next hsigned =>
    have hread := digits?_padded none 4 year.natAbs (fun k hk => by cases hk) hr
    by_cases hneg : year < 0
    · have hyear : -(year.natAbs : Int) = year := by omega
      rw [if_pos hneg, List.cons_append, year?, hread]
      exact congrArg (fun y => some (y, rest)) hyear
    · have hyear : (year.natAbs : Int) = year := by omega
      rw [if_neg hneg, List.cons_append, year?, hread]
      simp [hyear]

/-- A year starts with no blank. -/
theorem dropWhile_isBlank_renderYear (year : Int) (rest : List Char) :
    (renderYear year ++ rest).dropWhile isBlank = renderYear year ++ rest := by
  unfold renderYear
  split
  · obtain ⟨c, cs, hcs, -, -, hblank⟩ := exists_padded_eq_cons 4 year.toNat
    rw [hcs]
    simp [hblank]
  · split
    · rw [List.cons_append, List.dropWhile_cons_of_neg (by decide)]
    · rw [List.cons_append, List.dropWhile_cons_of_neg (by decide)]

/-- A hyphen right before a number is taken off, and nothing else. -/
theorem hyphen?_cons_padded (width n : Nat) (rest : List Char) :
    hyphen? ('-' :: (padded width n ++ rest)) = some (padded width n ++ rest) := by
  obtain ⟨c, cs, hcs, -, -, hblank⟩ := exists_padded_eq_cons width n
  rw [hyphen?, List.dropWhile_cons_of_neg (by decide), hcs]
  simp [hblank]

/-- The text of a date denotes that date. -/
theorem parse?_render (d : Date) : parse? d.render = some d := by
  obtain ⟨hmonth, hday⟩ := d.ymd_lt
  have hform : d.render.toList = renderYear d.ymd.1 ++
      '-' :: (padded 2 d.ymd.2.1 ++ '-' :: (padded 2 d.ymd.2.2 ++ [])) := by
    rw [render, String.toList_ofList, List.append_nil]
    rfl
  have htwo : ∀ n < 100, ∀ k, some 2 = some k → (padded 2 n).length ≤ k := by
    intro n hn k hk
    cases hk
    exact Nat.le_of_eq (length_padded Nat.two_pos hn)
  unfold parse?
  rw [hform, dropWhile_isBlank_renderYear, year?_renderYear _ (startsNoDigit_cons.mpr rfl)]
  simp only [Option.bind_eq_bind, Option.bind_some, hyphen?_cons_padded]
  rw [digits?_padded (some 2) 2 _ (htwo _ hmonth) (startsNoDigit_cons.mpr rfl)]
  simp only [Option.bind_some, hyphen?_cons_padded]
  rw [digits?_padded (some 2) 2 _ (htwo _ hday) startsNoDigit_nil]
  simp only [Option.bind_some, List.all_nil, if_true]
  exact ofYmd?_ymd d

end LintDebt.Date
