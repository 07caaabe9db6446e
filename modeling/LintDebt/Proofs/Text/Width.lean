import LintDebt.Text.Width

/-!
# Widths of texts put together

The width of a text is not the sum of the widths of its characters: a sequence may be drawn as one sign, and
may take columns back that its end has already been given.  But a space ends every sequence, so the widths on both
sides of it add up.

* `LintDebt.Text.Apart`, `LintDebt.Text.AreApart`: code points and tables that have nothing to do with a table.
* `LintDebt.Text.Follow.owed`, `LintDebt.Text.owed_le_measure`: no more columns are taken back than were given.
* `LintDebt.Text.displayWidth_append_space`: widths add up at a space.
* `LintDebt.Text.displayWidth_of_isPrintable`: printable ASCII characters take one column each.
-/

namespace LintDebt.Text

open WidthTable

/-! ## Tables -/

/-- A code point that is found in a table lies in one of its ranges. -/
theorem exists_range_of_inRangesBetween {table : Array (Nat × Nat)} {n low high : Nat}
    (h : inRangesBetween table n low high = true) :
    ∃ range ∈ table.toList, range.1 ≤ n ∧ n ≤ range.2 := by
  fun_induction inRangesBetween table n low high with
  | case1 => cases h
  | case2 low high hlt middle first last hlook hfirst ih => exact ih h
  | case3 low high hlt middle first last hlook hfirst hlast ih => exact ih h
  | case4 low high hlt middle first last hlook hfirst hlast =>
    have hmem : (first, last) ∈ table.toList := Array.mem_def.mp (Array.mem_of_getElem? hlook)
    exact ⟨(first, last), hmem, Nat.le_of_not_lt hfirst, Nat.le_of_not_lt hlast⟩
  | case5 => cases h

/-- A code point outside all ranges of a table. -/
def Apart (n : Nat) (table : Array (Nat × Nat)) : Prop :=
  ∀ range ∈ table.toList, n < range.1 ∨ range.2 < n

instance (n : Nat) (table : Array (Nat × Nat)) : Decidable (Apart n table) :=
  inferInstanceAs (Decidable (∀ range ∈ table.toList, n < range.1 ∨ range.2 < n))

/-- Two tables none of whose ranges meet. -/
def AreApart (table other : Array (Nat × Nat)) : Prop :=
  ∀ a ∈ table.toList, ∀ b ∈ other.toList, a.2 < b.1 ∨ b.2 < a.1

-- the tables are long: comparing numbers by a function that the kernel knows is several times faster
instance (table other : Array (Nat × Nat)) : Decidable (AreApart table other) :=
  decidable_of_iff
    ((table.toList.all fun a => other.toList.all fun b => Nat.blt a.2 b.1 || Nat.blt b.2 a.1) = true)
    (by simp only [AreApart, List.all_eq_true, Bool.or_eq_true, Nat.blt_eq])

variable {n : Nat} {table other : Array (Nat × Nat)}

/-- A code point outside all ranges is not found. -/
theorem Apart.inRanges_eq_false (h : Apart n table) : inRanges table n = false := by
  rw [Bool.eq_false_iff]
  intro hin
  obtain ⟨range, hmem, hfirst, hlast⟩ := exists_range_of_inRangesBetween hin
  rcases h range hmem with hbefore | hbehind <;> omega

/-- A code point found in one table is outside all ranges of another that does not meet it. -/
theorem AreApart.apart (h : AreApart table other) (hn : inRanges table n = true) : Apart n other := by
  obtain ⟨range, hmem, hfirst, hlast⟩ := exists_range_of_inRangesBetween hn
  intro b hb
  rcases h range hmem b hb with hbefore | hbehind <;> omega

/-- Characters outside the table of those that take no column take one. -/
theorem codeWidth_pos (h : Apart n zeroWidth) : 1 ≤ codeWidth n := by
  have hnone := h.inRanges_eq_false
  fun_cases codeWidth n
  case case4 hzero =>
    rw [hnone] at hzero
    cases hzero
  all_goals decide

/-- The letters that may be written below another take a column. -/
theorem areApart_coengLetter : AreApart coengLetter zeroWidth := by decide +kernel

/-! ## What is still owed -/

namespace Follow

/-- How many of the columns given to what follows may still be taken back. -/
def owed : Follow → Int
  | .coengLetter | .tifinaghJoiner | .joinedRegional | .joinedRegionalsOdd => 1
  | _ => 0

theorem owed_nonneg (f : Follow) : 0 ≤ f.owed := by
  fun_cases owed f <;> decide

theorem owed_le_one (f : Follow) : f.owed ≤ 1 := by
  fun_cases owed f <;> decide

/-- A character alone owes no more than it takes. -/
theorem owed_ofCode (n : Nat) : (ofCode n).owed ≤ codeWidth n := by
  have hnone : (0 : Int) ≤ codeWidth n := Int.natCast_nonneg _
  fun_cases ofCode n
  case case6 hletter => exact Int.ofNat_le.mpr (codeWidth_pos (areApart_coengLetter.apart hletter))
  all_goals exact hnone

theorem owed_withJoiner (f : Follow) : f.withJoiner.owed ≤ f.owed := by
  fun_cases withJoiner f
  case case5 => exact Int.le_refl _
  all_goals decide

end Follow

/-! ## Steps -/

/-- A step in a sequence takes back what is owed at most. -/
theorem owed_le_sequenceStep? {f f' : Follow} {columns : Int} (h : sequenceStep? n f = some (columns, f')) :
    f'.owed ≤ f.owed + columns := by
  revert h
  fun_cases sequenceStep? n f
  all_goals rintro ⟨⟩
  all_goals simp [Follow.owed]

/-- A step takes back what is owed at most, once the selectors have had their say. -/
theorem owed_le_advanceCode (n : Nat) (next : Context) :
    (advanceCode n next).2.follow.owed ≤ next.follow.owed + (advanceCode n next).1 := by
  have howed := next.follow.owed_nonneg
  have hselect (selector : Selector) : (next.select selector).follow.owed ≤ next.follow.owed := by
    unfold Context.select
    dsimp only
    split
    · exact Int.le_refl _
    · exact howed
  fun_cases advanceCode n next with
  | case1 hle hreturn =>
    show (0 : Int) ≤ _
    omega
  | case2 hle hreturn =>
    have hone := (Follow.ofCode n).owed_le_one
    dsimp only
    omega
  | case3 hle hemoji =>
    have hkept := hselect .emoji
    dsimp only
    omega
  | case4 hle hemoji htext =>
    have hkept := hselect .text
    dsimp only
    omega
  | case5 hle hemoji htext hbase =>
    show (0 : Int) ≤ _
    omega
  | case6 hle hemoji htext hbase htransparent =>
    have howed' := next.follow.owed_withJoiner
    dsimp only
    omega
  | case7 hle hemoji htext hbase hjoiner hmark =>
    dsimp only
    omega
  | case8 hle hemoji htext hbase hjoiner hmark columns follow hstep => exact owed_le_sequenceStep? hstep
  | case9 hle hemoji htext hbase hjoiner hmark hstep =>
    have howed' := Follow.owed_ofCode n
    dsimp only
    omega

/-- A step takes back what is owed at most. -/
theorem owed_le_advance (c : Char) (next : Context) :
    (advance c next).2.follow.owed ≤ next.follow.owed + (advance c next).1 := by
  have howed := next.follow.owed_nonneg
  unfold advance
  dsimp only
  split
  · split
    · show (0 : Int) ≤ _
      split <;> omega
    · have hkept : (if next.follow.outlivesSelector then next.follow else .plain).owed ≤ next.follow.owed := by
        split
        · exact Int.le_refl _
        · exact howed
      have hstep := owed_le_advanceCode c.toNat
        { follow := if next.follow.outlivesSelector then next.follow else .plain }
      dsimp only at hstep
      omega
  · exact owed_le_advanceCode c.toNat next

/-! ## Whole texts -/

/-- A text is measured from its end: the first character comes last. -/
theorem measure_cons (c : Char) (s : List Char) :
    measure (c :: s) = ((measure s).1 + (advance c (measure s).2).1, (advance c (measure s).2).2) := rfl

/-- No more columns are owed than were given. -/
theorem owed_le_measure (s : List Char) : (measure s).2.follow.owed ≤ (measure s).1 := by
  induction s with
  | nil => decide
  | cons c s ih =>
    have hstep := owed_le_advance c (measure s).2
    rw [measure_cons]
    dsimp only
    omega

/-- The width of a text is what is measured: that is never negative. -/
theorem displayWidth_eq_measure (s : List Char) : (displayWidth s : Int) = (measure s).1 := by
  have howed := owed_le_measure s
  have hnonneg := (measure s).2.follow.owed_nonneg
  unfold displayWidth
  omega

/-! ## Plain characters -/

/-- The printable ASCII characters. -/
def IsPrintable (c : Char) : Prop :=
  0x20 ≤ c.toNat ∧ c.toNat < 0x7F

instance (c : Char) : Decidable (IsPrintable c) :=
  inferInstanceAs (Decidable (_ ∧ _))

/-- Printable ASCII characters take a column behind what nothing is noted about, and nothing is noted then. -/
theorem advance_of_isPrintable {c : Char} (h : IsPrintable c) : advance c {} = (1, {}) := by
  obtain ⟨hfirst, hlast⟩ := h
  have hreturn : ¬(c.toNat = 0x0D ∧ ({} : Context) = ⟨.lineFeed, .absent⟩) := fun hboth => by omega
  have hnoted : Follow.ofCode c.toNat = .plain := by
    rw [Follow.ofCode, if_pos (by omega), if_neg (by omega)]
  unfold advance
  rw [if_neg (by decide), advanceCode, if_pos (by omega), if_neg hreturn, hnoted]

/-- Printable ASCII characters take one column each, and nothing is noted in front of them. -/
theorem measure_of_isPrintable {s : List Char} (h : ∀ c ∈ s, IsPrintable c) : measure s = ((s.length : Int), {}) := by
  induction s with
  | nil => rfl
  | cons c s ih =>
    rw [measure_cons, ih fun c' hc' => h c' (List.mem_cons_of_mem c hc'),
      advance_of_isPrintable (h c List.mem_cons_self)]
    rfl

/-- Printable ASCII characters take one column each. -/
theorem displayWidth_of_isPrintable {s : List Char} (h : ∀ c ∈ s, IsPrintable c) : displayWidth s = s.length := by
  rw [displayWidth, measure_of_isPrintable h, Int.toNat_natCast]

/-! ## Spaces -/

/-- A space takes a column, and nothing that follows is noted in front of it. -/
theorem advance_space (next : Context) : advance ' ' next = (1, {}) := by
  have hbase : inRanges emojiBase 0x20 = false := Apart.inRanges_eq_false (by decide +kernel)
  have hcode : ∀ next, advanceCode 0x20 next = (1, {}) := fun _ => rfl
  unfold advance
  show (if next.selector = .emoji then if inRanges emojiBase 0x20 = true then _ else _ else _) = _
  rw [hbase, if_neg Bool.false_ne_true]
  split
  · exact hcode _
  · exact hcode _

/-- What stands behind a space makes no difference to what stands in front of it. -/
theorem measure_append_space (s t : List Char) :
    measure (s ++ ' ' :: t) = ((measure s).1 + 1 + (measure t).1, (measure s).2) := by
  induction s with
  | nil =>
    rw [List.nil_append, measure_cons, advance_space]
    exact Prod.ext (Int.add_comm _ _) rfl
  | cons c s ih =>
    rw [List.cons_append, measure_cons, ih, measure_cons]
    dsimp only
    exact Prod.ext (by dsimp only; omega) rfl

/-- Widths add up at a space. -/
theorem displayWidth_append_space (s t : List Char) :
    displayWidth (s ++ ' ' :: t) = displayWidth s + 1 + displayWidth t := by
  have hwhole := displayWidth_eq_measure (s ++ ' ' :: t)
  have hfront := displayWidth_eq_measure s
  have hback := displayWidth_eq_measure t
  rw [measure_append_space] at hwhole
  dsimp only at hwhole
  omega

/-- Spaces in front of a text take a column each. -/
theorem displayWidth_spaces_append (n : Nat) (s : List Char) :
    displayWidth (List.replicate n ' ' ++ s) = n + displayWidth s := by
  induction n with
  | zero => rw [List.replicate_zero, List.nil_append, Nat.zero_add]
  | succ n ih =>
    have hstep := displayWidth_append_space [] (List.replicate n ' ' ++ s)
    rw [List.nil_append, ih, displayWidth_nil] at hstep
    rw [List.replicate_succ, List.cons_append, hstep]
    omega

/-- Spaces behind a text take a column each. -/
theorem displayWidth_append_spaces (s : List Char) (n : Nat) :
    displayWidth (s ++ List.replicate n ' ') = displayWidth s + n := by
  cases n with
  | zero => rw [List.replicate_zero, List.append_nil, Nat.add_zero]
  | succ n =>
    have hspaces := displayWidth_spaces_append n []
    rw [List.append_nil, displayWidth_nil] at hspaces
    rw [List.replicate_succ, displayWidth_append_space, hspaces]
    omega

end LintDebt.Text
