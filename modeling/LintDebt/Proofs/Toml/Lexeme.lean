import LintDebt.Proofs.Text.Digits
import LintDebt.Toml.Document
import LintDebt.Toml.Printer

/-!
# Written keys and numbers of TOML read back

A key may be any text: it is written without quotes, in quotes, or in quotes with escapes.  A number at the
end of a line is taken neither for a date, nor for a time, nor for a number with a fraction.

* `LintDebt.Toml.escapeChar_cases`: the three ways in which a character is written in double quotes.
* `LintDebt.Toml.basic?_flatMap_escapeChar`: a text in double quotes reads back.
* `LintDebt.Toml.keyPart?_quoteKey`: a key reads back.
* `LintDebt.Toml.value?_decimalDigits`: a number reads back.
-/

namespace LintDebt.Toml

open LintDebt.Text (decimalDigits isDigit_of_mem_decimalDigits exists_digit_eq_decimalDigits
  decimalDigits_head_ne_zero ne_of_isDigit)

/-! ## Quoted texts -/

/-- What needs no escape may stand in a string as it is. -/
theorem isPlain_of_not_isControl {c : Char} (h : isControl c = false) : isPlain c = true := by
  simp only [isControl, Bool.or_eq_false_iff, Bool.and_eq_false_iff, decide_eq_false_iff_not,
    bne_eq_false_iff_eq, beq_eq_false_iff_ne] at h
  simp only [isPlain, Bool.or_eq_true, beq_iff_eq, Bool.and_eq_true, decide_eq_true_eq, bne_iff_ne]
  obtain ⟨hlow, hdel⟩ := h
  rcases hlow with hlow | htab
  · refine .inr ⟨Nat.not_lt.mp hlow, ?_⟩
    rintro rfl
    exact hdel rfl
  · exact .inl htab

/-- The code point of a character in hexadecimal digits, at least four of them. -/
def hexOf (c : Char) : List Char :=
  let hex := (Nat.toDigits 16 c.toNat).map Char.toUpper
  List.replicate (4 - hex.length) '0' ++ hex

/-- A control character has four such digits, and they denote it. -/
theorem charOfHex?_hexOf_control : ∀ n < 128, (hexOf (Char.ofNat n)).length = 4 ∧
      charOfHex? (hexOf (Char.ofNat n)) = some (Char.ofNat n) := by
  decide

/-- A backslash and a letter are read as the character they denote. -/
theorem basic?_letter {e c : Char} (he : simpleEscape? e = some c) (rest : List Char) :
    basic? ('\\' :: e :: rest) = consTo c (basic? rest) := by
  rw [basic?.eq_def]
  split
  · simp_all
  · simp_all
  · next h => cases h; cases he
  · next h => cases h; cases he
  · next h => cases h; rw [he]; rfl
  · next hnot h =>
    cases h
    exact absurd rfl (hnot e rest rfl)

/-- A code point is read as its character. -/
theorem basic?_hex {a b c d found : Char} (h : charOfHex? [a, b, c, d] = some found) (rest : List Char) :
    basic? ('\\' :: 'u' :: a :: b :: c :: d :: rest) = consTo found (basic? rest) := by
  rw [basic?, h]
  rfl

/-- Any other character is read as itself. -/
theorem basic?_plain {c : Char} (hplain : isPlain c = true) (hquote : c ≠ '"') (hslash : c ≠ '\\')
    (rest : List Char) : basic? (c :: rest) = consTo c (basic? rest) := by
  rw [basic?.eq_def]
  split <;> simp_all

/-- A character is written as a letter behind a backslash, as its code point, or as it is. -/
theorem escapeChar_cases (c : Char) :
    (∃ e, simpleEscape? e = some c ∧ escapeChar c = ['\\', e]) ∨
      (∃ d₁ d₂ d₃ d₄, charOfHex? [d₁, d₂, d₃, d₄] = some c ∧ escapeChar c = ['\\', 'u', d₁, d₂, d₃, d₄]) ∨
        (isPlain c = true ∧ c ≠ '"' ∧ c ≠ '\\' ∧ escapeChar c = [c]) := by
  by_cases hletter : c ∈ ['"', '\\', '\x08', '\t', '\n', '\x0c', '\r']
  · left
    simp only [List.mem_cons, List.not_mem_nil, or_false] at hletter
    rcases hletter with rfl | rfl | rfl | rfl | rfl | rfl | rfl <;> exact ⟨_, rfl, rfl⟩
  · right
    simp only [List.mem_cons, List.not_mem_nil, or_false, not_or] at hletter
    obtain ⟨hquote, hslash, hb, ht, hn, hf, hr⟩ := hletter
    cases hcontrol : isControl c with
    | false =>
      refine .inr ⟨isPlain_of_not_isControl hcontrol, hquote, hslash, ?_⟩
      simp [escapeChar, hquote, hslash, hb, ht, hn, hf, hr, hcontrol]
    | true =>
      have hlow : c.toNat < 128 := by
        simp only [isControl, Bool.or_eq_true, Bool.and_eq_true, decide_eq_true_eq, beq_iff_eq] at hcontrol
        omega
      obtain ⟨hlength, hvalue⟩ := charOfHex?_hexOf_control c.toNat hlow
      rw [Char.ofNat_toNat] at hlength hvalue
      have hescape : escapeChar c = '\\' :: 'u' :: hexOf c := by
        simp [escapeChar, hquote, hslash, hb, ht, hn, hf, hr, hcontrol, hexOf]
      match hexOf c, hlength, hvalue, hescape with
      | [d₁, d₂, d₃, d₄], _, hvalue, hescape => exact .inl ⟨d₁, d₂, d₃, d₄, hvalue, hescape⟩

/-- A written character is read as that character. -/
theorem basic?_escapeChar (c : Char) (s : List Char) :
    basic? (escapeChar c ++ s) = consTo c (basic? s) := by
  obtain ⟨e, he, hform⟩ | ⟨d₁, d₂, d₃, d₄, hd, hform⟩ | ⟨hplain, hquote, hslash, hform⟩ := escapeChar_cases c
  · rw [hform]
    exact basic?_letter he s
  · rw [hform]
    exact basic?_hex hd s
  · rw [hform]
    exact basic?_plain hplain hquote hslash s

/-- A text in double quotes reads back. -/
theorem basic?_flatMap_escapeChar (chars rest : List Char) :
    basic? (chars.flatMap escapeChar ++ '"' :: rest) = some (chars, rest) := by
  induction chars with
  | nil => rfl
  | cons c chars ih =>
    rw [List.flatMap_cons, List.append_assoc, basic?_escapeChar, ih]
    rfl

/-- A text in single quotes reads back, when it holds none and no control character. -/
theorem literal?_append {chars : List Char} (h : ∀ c ∈ chars, isControl c = false ∧ c ≠ '\'')
    (rest : List Char) : literal? (chars ++ '\'' :: rest) = some (chars, rest) := by
  induction chars with
  | nil => rfl
  | cons c chars ih =>
    obtain ⟨hcontrol, hquote⟩ := h c List.mem_cons_self
    rw [List.cons_append, literal?.eq_def]
    split
    · next e => cases e
    · next e => cases e; exact absurd rfl hquote
    · next e =>
      cases e
      rw [if_pos (isPlain_of_not_isControl hcontrol), ih fun c hc => h c (List.mem_cons_of_mem _ hc)]
      rfl

/-! ## Keys -/

/-- A key without quotes reads back in front of a character that does not go on with it. -/
theorem keyPart?_bare {chars rest : List Char} (h : isBareKey chars = true)
    (hrest : ∀ c ∈ rest.head?, isBareKeyChar c = false) :
    keyPart? (chars ++ rest) = some (String.ofList chars, rest) := by
  obtain ⟨hne, hall⟩ := Bool.and_eq_true_iff.mp h
  have hchars : ∀ c ∈ chars, isBareKeyChar c = true := List.all_eq_true.mp hall
  have hend : rest.takeWhile isBareKeyChar = [] ∧ rest.dropWhile isBareKeyChar = rest := by
    cases rest with
    | nil => exact ⟨rfl, rfl⟩
    | cons c rest =>
      have hc := hrest c rfl
      exact ⟨by simp [hc], by simp [hc]⟩
  cases chars with
  | nil => cases hne
  | cons c cs =>
    have hc := hchars c List.mem_cons_self
    rw [keyPart?.eq_def]
    split
    · next e => cases e; cases hc
    · next e => cases e; cases hc
    · rw [List.takeWhile_append_of_pos hchars, List.dropWhile_append_of_pos hchars, hend.1, hend.2,
        List.append_nil]
      rfl

/-- A key reads back, whatever its characters are. -/
theorem keyPart?_quoteKey (key : String) {rest : List Char}
    (hrest : ∀ c ∈ rest.head?, isBareKeyChar c = false) :
    keyPart? ((quoteKey key).toList ++ rest) = some (key, rest) := by
  have hbasic : keyPart? ((String.ofList ('"' :: (key.toList.flatMap escapeChar ++ ['"']))).toList ++ rest) =
      some (key, rest) := by
    rw [String.toList_ofList, List.cons_append, List.append_assoc, List.singleton_append, keyPart?,
      basic?_flatMap_escapeChar, Option.map_some]
    simp
  unfold quoteKey
  dsimp only
  split
  · next hbare => rw [keyPart?_bare hbare hrest, String.ofList_toList]
  · split
    · exact hbasic
    · split
      · next hliteral =>
        rw [String.toList_ofList, List.cons_append, List.append_assoc, List.singleton_append, keyPart?,
          literal?_append, Option.map_some]
        · simp
        · simpa using hliteral
      · exact hbasic

/-- Where no blank stands there is nothing to skip. -/
theorem skipBlank_cons {c : Char} (h : isBlank c = false) (s : List Char) : skipBlank (c :: s) = c :: s :=
  List.dropWhile_cons_of_neg (by rw [h]; exact Bool.false_ne_true)

/-- No blank stands in a key without quotes. -/
theorem isBlank_of_isBareKeyChar {c : Char} (h : isBareKeyChar c = true) : isBlank c = false := by
  refine Bool.eq_false_iff.mpr fun hblank => ?_
  simp only [isBlank, Bool.or_eq_true, beq_iff_eq] at hblank
  rcases hblank with rfl | rfl <;> cases h

/-- A part of a key starts with no blank. -/
theorem skipBlank_of_keyPart? {s : List Char} {found : String × List Char} (h : keyPart? s = some found) :
    skipBlank s = s := by
  cases s with
  | nil => rfl
  | cons c s =>
    cases hblank : isBlank c with
    | false => exact skipBlank_cons hblank s
    | true =>
      -- such a text would be a key without quotes of no characters
      simp only [isBlank, Bool.or_eq_true, beq_iff_eq] at hblank
      rcases hblank with rfl | rfl <;> cases h

variable {part : String} {s rest : List Char}

/-- A part that no dot follows ends a key. -/
theorem keyParts?_last (h : keyPart? s = some (part, rest)) (hrest : ∀ c ∈ (skipBlank rest).head?, c ≠ '.')
    (most : Nat) : keyParts? (most + 1) s = some ([part], skipBlank rest) := by
  rw [keyParts?, skipBlank_of_keyPart? h, h]
  simp only [Option.bind_eq_bind, Option.bind_some]
  split
  · next rest' hdot =>
    exact absurd rfl (hrest '.' (by rw [hdot]; rfl))
  · rfl

/-- A part that a dot follows stands in front of the parts behind it. -/
theorem keyParts?_dot (h : keyPart? s = some (part, '.' :: rest)) (most : Nat) :
    keyParts? (most + 1) s = (keyParts? most rest).map fun found => (part :: found.1, found.2) := by
  rw [keyParts?, skipBlank_of_keyPart? h, h]
  simp only [Option.bind_eq_bind, Option.bind_some]
  rw [show skipBlank ('.' :: rest) = '.' :: rest from rfl, Option.map_eq_bind]
  rfl

/-! ## Numbers -/

/-- Digits at the end of a line are taken off whole. -/
theorem spacedDigits_append {digits : List Char} (h : ∀ c ∈ digits, c.isDigit = true) (rest : List Char) :
    spacedDigits Char.isDigit (digits ++ '\n' :: rest) = (digits, '\n' :: rest) := by
  induction digits with
  | nil =>
    rw [List.nil_append, spacedDigits.eq_def]
    split
    · next e =>
      cases e
      rfl
    · next e =>
      cases e
      rfl
    · next e => cases e
  | cons c digits ih =>
    have hc := h c List.mem_cons_self
    have ih := ih fun c hc => h c (List.mem_cons_of_mem _ hc)
    rw [List.cons_append, spacedDigits.eq_def]
    split
    · next e =>
      -- no underscore stands between the digits
      obtain ⟨-, e⟩ := List.cons.inj e
      cases digits with
      | nil => cases e
      | cons d digits =>
        obtain rfl := (List.cons.inj e).1
        cases h '_' (List.mem_cons_of_mem c List.mem_cons_self)
    · next e =>
      cases e
      rw [if_pos hc, ih]
    · next e => cases e

/-- The digits of a number are those of a whole number, whether it is zero or not. -/
theorem wholeDigits?_decimalDigits (n : Nat) (rest : List Char) :
    wholeDigits? (decimalDigits n ++ '\n' :: rest) = some (decimalDigits n, '\n' :: rest) := by
  by_cases hn : n = 0
  · subst hn
    rfl
  · have hspaced := spacedDigits_append (fun _ => isDigit_of_mem_decimalDigits (n := n)) rest
    obtain ⟨c, cs, hcs, hdigit⟩ := exists_digit_eq_decimalDigits n
    have hc : c ≠ '0' := decimalDigits_head_ne_zero (by omega) hcs
    rw [hcs, List.cons_append] at hspaced ⊢
    rw [wholeDigits?.eq_def]
    split
    · next e => cases e; exact absurd rfl hc
    · rw [hspaced]
      rfl

/-- Behind a digit of a number at the end of a line stands another one or the end of the line. -/
theorem char?_of_fixedDigits? {width : Nat} {digits rest s : List Char} {n : Nat} {c : Char}
    (h : ∀ d ∈ digits, d.isDigit = true) (hc : c.isDigit = false) (hline : c ≠ '\n')
    (hfixed : fixedDigits? width (digits ++ '\n' :: rest) = some (n, s)) : char? c s = none := by
  unfold fixedDigits? at hfixed
  dsimp only at hfixed
  split at hfixed
  · next hall =>
    obtain ⟨hlength, hall⟩ := hall
    cases hfixed
    have hwidth : width ≤ digits.length := by
      refine Nat.le_of_not_lt fun hlt => ?_
      obtain ⟨k, rfl⟩ := Nat.exists_eq_add_of_lt hlt
      have hend : '\n' ∈ (digits ++ '\n' :: rest).take (digits.length + k + 1) := by
        rw [Nat.add_assoc, List.take_length_add_append]
        exact List.mem_append_right _ List.mem_cons_self
      cases List.all_eq_true.mp hall '\n' hend
    rw [List.drop_append_of_le_length hwidth]
    cases hdrop : digits.drop width with
    | nil => exact if_neg hline
    | cons d ds =>
      have hdigit := h d (List.mem_of_mem_drop (hdrop ▸ List.mem_cons_self))
      exact if_neg (ne_of_isDigit hdigit hc).symm
  · cases hfixed

/-- Digits alone are no date. -/
theorem date?_digits {digits : List Char} (h : ∀ c ∈ digits, c.isDigit = true) (rest : List Char) :
    date? (digits ++ '\n' :: rest) = none := by
  unfold date?
  cases hyear : fixedDigits? 4 (digits ++ '\n' :: rest) with
  | none => rfl
  | some found =>
    obtain ⟨year, s⟩ := found
    simp only [Option.bind_eq_bind, Option.bind_some,
      char?_of_fixedDigits? (c := '-') h (by decide) (by decide) hyear, Option.bind_none]

/-- Digits alone are no time. -/
theorem time?_digits {digits : List Char} (h : ∀ c ∈ digits, c.isDigit = true) (rest : List Char) :
    time? (digits ++ '\n' :: rest) = none := by
  unfold time?
  cases hhour : twoDigits? 0 23 (digits ++ '\n' :: rest) with
  | none => rfl
  | some found =>
    obtain ⟨hour, s⟩ := found
    have hfixed := (Option.filter_eq_some_iff.mp hhour).1
    simp only [Option.bind_eq_bind, Option.bind_some,
      char?_of_fixedDigits? (c := ':') h (by decide) (by decide) hfixed, Option.bind_none]

/-- A number is written without a sign. -/
theorem sign_decimalDigits (n : Nat) (rest : List Char) :
    sign (decimalDigits n ++ rest) = (false, decimalDigits n ++ rest) := by
  obtain ⟨c, cs, hcs, hdigit⟩ := exists_digit_eq_decimalDigits n
  rw [hcs, List.cons_append, sign.eq_def]
  split
  · next e => cases e; cases hdigit
  · next e => cases e; cases hdigit
  · rfl

/-- A number without a fraction is no number with one. -/
theorem float?_decimalDigits (n : Nat) (rest : List Char) :
    float? (decimalDigits n ++ '\n' :: rest) = none := by
  have hdecimal : decimalFloat? (decimalDigits n ++ '\n' :: rest) = none := by
    simp [decimalFloat?, sign_decimalDigits, wholeDigits?_decimalDigits, fraction?, exponent?]
  have hspecial : specialFloat? (decimalDigits n ++ '\n' :: rest) = none := by
    obtain ⟨c, cs, hcs, hdigit⟩ := exists_digit_eq_decimalDigits n
    have hword (first : Char) (word : List Char) (hfirst : first.isDigit = false) :
        word? (first :: word) (decimalDigits n ++ '\n' :: rest) = none := by
      rw [hcs]
      unfold word?
      exact if_neg fun e => ne_of_isDigit hdigit hfirst (List.cons.inj e).1
    unfold specialFloat?
    rw [sign_decimalDigits]
    dsimp only
    rw [show "inf".toList = 'i' :: ['n', 'f'] from rfl, show "nan".toList = 'n' :: ['a', 'n'] from rfl,
      hword _ _ rfl, hword _ _ rfl]
    rfl
  rw [float?, hdecimal, hspecial]
  rfl

/-- A number of at most 63 bits is read as a whole number. -/
theorem integer?_decimalDigits {n : Nat} (h : n < 2 ^ 63) (rest : List Char) :
    integer? (decimalDigits n ++ '\n' :: rest) = some (.integer n, '\n' :: rest) := by
  have hdecimal : decimalInteger? (decimalDigits n ++ '\n' :: rest) = some ((n : Int), '\n' :: rest) := by
    simp [decimalInteger?, sign_decimalDigits, wholeDigits?_decimalDigits]
  have hbounds : Int64.minValue.toInt ≤ (n : Int) ∧ (n : Int) ≤ Int64.maxValue.toInt := by
    rw [show Int64.minValue.toInt = -2 ^ 63 from rfl, show Int64.maxValue.toInt = 2 ^ 63 - 1 from rfl]
    omega
  by_cases hn : n = 0
  · subst hn
    rfl
  obtain ⟨c, cs, hcs, hdigit⟩ := exists_digit_eq_decimalDigits n
  have hc : c ≠ '0' := decimalDigits_head_ne_zero (by omega) hcs
  rw [hcs, List.cons_append] at hdecimal ⊢
  unfold integer?
  split
  · next e => exact absurd (List.cons.inj e).1 hc
  · next e => exact absurd (List.cons.inj e).1 hc
  · next e => exact absurd (List.cons.inj e).1 hc
  · rw [hdecimal]
    exact if_pos hbounds

/-- Such a number at the end of a line reads back. -/
theorem value?_decimalDigits {n : Nat} (h : n < 2 ^ 63) (fuel depth : Nat) (rest : List Char) :
    value? (fuel + 1) depth (decimalDigits n ++ '\n' :: rest) = some (.integer n, '\n' :: rest) := by
  have hdigits : ∀ c ∈ decimalDigits n, c.isDigit = true := fun _ => isDigit_of_mem_decimalDigits
  have hdate : dateTime? (decimalDigits n ++ '\n' :: rest) = none := by
    rw [dateTime?, date?_digits hdigits, time?_digits hdigits]
    rfl
  have hread : (dateTime? (decimalDigits n ++ '\n' :: rest) <|> float? (decimalDigits n ++ '\n' :: rest) <|>
      integer? (decimalDigits n ++ '\n' :: rest)) = some (.integer n, '\n' :: rest) := by
    rw [hdate, float?_decimalDigits, integer?_decimalDigits h]
    rfl
  obtain ⟨c, cs, hcs, hdigit⟩ := exists_digit_eq_decimalDigits n
  have hne (d : Char) (hd : d.isDigit = false) : c ≠ d := ne_of_isDigit hdigit hd
  rw [hcs, List.cons_append] at hread ⊢
  rw [value?.eq_def]
  dsimp only
  rw [if_neg (not_or.mpr ⟨hne _ rfl, hne _ rfl⟩), if_neg (hne _ rfl), if_neg (hne _ rfl),
    if_neg (hne _ rfl), if_neg (hne _ rfl)]
  exact hread

end LintDebt.Toml
