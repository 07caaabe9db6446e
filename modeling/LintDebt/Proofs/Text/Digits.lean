import LintDebt.Text.Digits
import Mathlib.Algebra.Group.Nat.Defs

/-!
# Digits in front of other text

What a reader of digits sees when a number written in decimal stands before other text.

* `LintDebt.Text.StartsNoDigit`: a text that cannot make a number before it longer.
* `LintDebt.Text.takeDigits_decimalDigits`: the digits of a number are taken off whole.
* `LintDebt.Text.decimalDigits_head_ne_zero`: a positive number is written without a leading zero.
-/

namespace LintDebt.Text

/-- The text does not start with a digit. -/
def StartsNoDigit (s : List Char) : Prop :=
  ∀ c rest, s = c :: rest → c.isDigit = false

/-- The empty text starts with no digit. -/
@[simp] theorem startsNoDigit_nil : StartsNoDigit [] := by
  intro c rest h
  cases h

/-- A text starts with no digit when its first character is none. -/
@[simp] theorem startsNoDigit_cons {c : Char} {rest : List Char} :
    StartsNoDigit (c :: rest) ↔ c.isDigit = false := by
  constructor
  · intro h
    exact h c rest rfl
  · rintro h c' rest' e
    cases e
    exact h

/-- Digits before a text that starts with none are taken off exactly. -/
theorem takeDigits_append_of_digits {digits rest : List Char}
    (hd : ∀ c ∈ digits, c.isDigit = true) (hr : StartsNoDigit rest) :
    takeDigits (digits ++ rest) = (digits, rest) := by
  have hrest : rest.takeWhile Char.isDigit = [] ∧ rest.dropWhile Char.isDigit = rest := by
    cases rest with
    | nil => exact ⟨rfl, rfl⟩
    | cons c rest =>
      have hc := startsNoDigit_cons.mp hr
      exact ⟨by simp [hc], by simp [hc]⟩
  unfold takeDigits
  rw [List.takeWhile_append_of_pos hd, List.dropWhile_append_of_pos hd, hrest.1, hrest.2,
    List.append_nil]

/-- Every character of a number is a digit. -/
theorem isDigit_of_mem_decimalDigits {n : Nat} {c : Char} (h : c ∈ decimalDigits n) :
    c.isDigit = true :=
  Nat.isDigit_of_mem_toDigits (by decide) (by decide) h

/-- A digit is different from what is none. -/
theorem ne_of_isDigit {c d : Char} (hc : c.isDigit = true) (hd : d.isDigit = false) : c ≠ d := by
  rintro rfl
  rw [hc] at hd
  cases hd

/-- A number has at least one digit. -/
theorem decimalDigits_ne_nil (n : Nat) : decimalDigits n ≠ [] :=
  Nat.toDigits_ne_nil

/-- A number is written with a first digit. -/
theorem exists_digit_eq_decimalDigits (n : Nat) :
    ∃ c cs, decimalDigits n = c :: cs ∧ c.isDigit = true := by
  obtain ⟨c, cs, hcs⟩ := List.exists_cons_of_ne_nil (decimalDigits_ne_nil n)
  exact ⟨c, cs, hcs, isDigit_of_mem_decimalDigits (hcs ▸ List.mem_cons_self)⟩

/-- The digits of a number are taken off whole. -/
theorem takeDigits_decimalDigits (n : Nat) {rest : List Char} (hr : StartsNoDigit rest) :
    takeDigits (decimalDigits n ++ rest) = (decimalDigits n, rest) :=
  takeDigits_append_of_digits (fun _ => isDigit_of_mem_decimalDigits) hr

/-- Only the number zero starts with the digit zero. -/
theorem decimalDigits_head_ne_zero {n : Nat} (hn : 0 < n) {c : Char} {rest : List Char}
    (h : decimalDigits n = c :: rest) : c ≠ '0' := by
  induction n using Nat.strongRecOn generalizing rest with
  | ind n ih =>
    unfold decimalDigits at h
    by_cases hlt : n < 10
    · rw [Nat.toDigits_of_lt_base hlt] at h
      cases h
      intro h0
      rw [Nat.digitChar_eq_zero] at h0
      omega
    · rw [Nat.toDigits_of_base_le (by decide) (by omega)] at h
      obtain ⟨d, ds, hds⟩ := List.exists_cons_of_ne_nil (decimalDigits_ne_nil (n / 10))
      have hhead : d = c := by
        rw [show Nat.toDigits 10 (n / 10) = d :: ds from hds] at h
        exact (List.cons.inj h).1
      subst hhead
      exact ih (n / 10) (by omega) (by omega) hds

/-- A number below a power of ten has at most as many digits as the exponent says. -/
theorem length_decimalDigits_le {n k : Nat} (hk : 0 < k) (h : n < 10 ^ k) :
    (decimalDigits n).length ≤ k :=
  (Nat.length_toDigits_le_iff (by decide) hk).mpr h

end LintDebt.Text
