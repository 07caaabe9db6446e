import LintDebt.Json.Parser
import LintDebt.Json.Printer
import LintDebt.Proofs.Text.Digits

/-!
# Written JSON reads back

A value that holds no illegible text is written in such a way that reading gives it back, whatever
follows it, as long as a number at its end is not made longer.

* `LintDebt.Json.scanString_escape`: an escaped text is scanned character for character.
* `LintDebt.Json.number?_integer`, `number?_decimal`: numbers read back.
* `LintDebt.Json.value?_render`: a value reads back in front of a text that makes no number longer.
* `LintDebt.Json.parse?_compact`, `parseStrict?_compact`: a whole text in compact form reads back.
* `LintDebt.Json.showable_render`: compact text holds no control character, so it is one line.
-/

namespace LintDebt.Json

open LintDebt.Text

/-! ## Strings -/

/-- The two digits of a control character denote it again. -/
theorem hexNumber?_control :
    ∀ n < 32, hexNumber? 0 ['0', '0', hexDigit (n / 16), hexDigit (n % 16)] = some n := by
  decide

/-- A backslash and a letter are scanned as the character they denote. -/
theorem scanString_letter {e c : Char} (he : simpleEscape? e = some c) (rest : List Char) :
    scanString ('\\' :: e :: rest) =
      (scanString rest).map fun found => (.char c :: found.1, found.2) := by
  have hu : e ≠ 'u' := by
    rintro rfl
    cases he
  rw [scanString.eq_def]
  split
  · simp_all
  · simp_all
  · simp_all
  · next c' rest' _ h =>
    cases h
    rw [he]
    cases scanString rest <;> rfl
  · next c' rest' _ hnot h =>
    cases h
    exact absurd rfl (hnot e rest rfl)

/-- A control character written as a code unit is scanned as that character. -/
theorem scanString_control {c : Char} (hc : c.toNat < 32) (rest : List Char) :
    scanString ('\\' :: 'u' :: '0' :: '0' :: hexDigit (c.toNat / 16) :: hexDigit (c.toNat % 16) ::
        rest) =
      (scanString rest).map fun found => (.char c :: found.1, found.2) := by
  have hunit : pieceOfUnit c.toNat = .char c := by
    have hh : isHighHalf c.toNat = false := by simp [isHighHalf]; omega
    have hl : isLowHalf c.toNat = false := by simp [isLowHalf]; omega
    simp [pieceOfUnit, hh, hl, Char.ofNat_toNat]
  rw [scanString, hexNumber?_control c.toNat hc]
  cases h : scanString rest <;> simp [hunit]

/-- A character that needs no escape is scanned as itself. -/
theorem scanString_plain {c : Char} (hq : c ≠ '"') (hb : c ≠ '\\') (hc : ¬ c.toNat < 32)
    (rest : List Char) :
    scanString (c :: rest) =
      (scanString rest).map fun found => (.char c :: found.1, found.2) := by
  have hlt : ¬ c < ' ' := fun h => hc h
  rw [scanString.eq_def]
  split
  · simp_all
  · simp_all
  · simp_all
  · simp_all
  · next c' rest' _ _ _ h =>
    cases h
    rw [if_neg (by simp [hlt, hb])]
    cases scanString rest <;> rfl

/-- A character is written as a letter behind a backslash, as its code point, or as it is. -/
theorem escapeChar_cases (c : Char) :
    (∃ e, simpleEscape? e = some c ∧ 32 ≤ e.toNat ∧ escapeChar c = ['\\', e]) ∨
      (c.toNat < 32 ∧ escapeChar c =
        ['\\', 'u', '0', '0', hexDigit (c.toNat / 16), hexDigit (c.toNat % 16)]) ∨
      (c ≠ '"' ∧ c ≠ '\\' ∧ ¬ c.toNat < 32 ∧ escapeChar c = [c]) := by
  by_cases hletter : c ∈ ['"', '\\', '\n', '\r', '\t', '\x08', '\x0c']
  · left
    simp only [List.mem_cons, List.not_mem_nil, or_false] at hletter
    rcases hletter with rfl | rfl | rfl | rfl | rfl | rfl | rfl <;> exact ⟨_, rfl, by decide, rfl⟩
  · right
    simp only [List.mem_cons, List.not_mem_nil, or_false, not_or] at hletter
    obtain ⟨hquote, hslash, hn, hr, ht, hb, hf⟩ := hletter
    by_cases hcontrol : c.toNat < 32
    · exact .inl ⟨hcontrol, by simp [escapeChar, hquote, hslash, hn, hr, ht, hb, hf, hcontrol]⟩
    · exact .inr ⟨hquote, hslash, hcontrol, by
        simp [escapeChar, hquote, hslash, hn, hr, ht, hb, hf, hcontrol]⟩

/-- An escaped character is scanned as that character. -/
theorem scanString_escapeChar (c : Char) (rest : List Char) :
    scanString (escapeChar c ++ rest) =
      (scanString rest).map fun found => (.char c :: found.1, found.2) := by
  obtain ⟨e, he, -, hform⟩ | ⟨hcontrol, hform⟩ | ⟨hquote, hslash, hcontrol, hform⟩ := escapeChar_cases c
  · rw [hform]
    exact scanString_letter he rest
  · rw [hform]
    exact scanString_control hcontrol rest
  · rw [hform]
    exact scanString_plain hquote hslash hcontrol rest

/-- An escaped text is scanned character for character, up to the quote behind it. -/
theorem scanString_escape (s rest : List Char) :
    scanString (escape s ++ '"' :: rest) = some (s.map .char, rest) := by
  induction s with
  | nil => simp [escape, scanString]
  | cons c s ih =>
    have hcons : escape (c :: s) ++ '"' :: rest = escapeChar c ++ (escape s ++ '"' :: rest) := by
      simp [escape]
    rw [hcons, scanString_escapeChar, ih]
    rfl

/-- Characters need no pairing. -/
theorem pairUp_map_char (s : List Char) : pairUp (s.map .char) = some s := by
  induction s with
  | nil => rfl
  | cons c s ih => simp [pairUp, ih]

/-- The pieces of a text make the text. -/
theorem strOfPieces_map_char (s : String) : strOfPieces (s.toList.map .char) = .str s := by
  rw [strOfPieces, pairUp_map_char]
  simp

/-! ## Numbers -/

/-- The digits before the point of a number are its digits, whether it is zero or not. -/
theorem wholeDigits?_decimalDigits (n : Nat) {rest : List Char} (hr : StartsNoDigit rest) :
    wholeDigits? (decimalDigits n ++ rest) = some (decimalDigits n, rest) := by
  by_cases hn : n = 0
  · subst hn
    rfl
  · obtain ⟨c, cs, hcs⟩ := List.exists_cons_of_ne_nil (decimalDigits_ne_nil n)
    have hc : c ≠ '0' := decimalDigits_head_ne_zero (by omega) hcs
    have htake := takeDigits_decimalDigits n hr
    rw [hcs, List.cons_append] at htake ⊢
    rw [wholeDigits?.eq_def]
    split
    · next h =>
      cases h
      exact absurd rfl hc
    · rw [htake]
      simp

/-- A text that cannot make a number longer: neither a digit, nor a point, nor an exponent. -/
def EndsNumber (s : List Char) : Prop :=
  ∀ c rest, s = c :: rest → c.isDigit = false ∧ c ≠ '.' ∧ c ≠ 'e' ∧ c ≠ 'E'

/-- The end of a text makes no number longer. -/
@[simp] theorem endsNumber_nil : EndsNumber [] := by
  intro c rest h
  cases h

/-- A text makes no number longer when its first character does not. -/
@[simp] theorem endsNumber_cons {c : Char} {rest : List Char} :
    EndsNumber (c :: rest) ↔ c.isDigit = false ∧ c ≠ '.' ∧ c ≠ 'e' ∧ c ≠ 'E' := by
  constructor
  · intro h
    exact h c rest rfl
  · rintro h c' rest' e
    cases e
    exact h

/-- A text that makes no number longer starts with no digit. -/
theorem EndsNumber.startsNoDigit {s : List Char} (h : EndsNumber s) : StartsNoDigit s :=
  fun c rest e => (h c rest e).1

/-- No fraction stands where a number ends. -/
theorem EndsNumber.fraction? {s : List Char} (h : EndsNumber s) : fraction? s = some ([], s) := by
  cases s with
  | nil => rfl
  | cons c rest =>
    have hc := (endsNumber_cons.mp h).2.1
    rw [fraction?.eq_def]
    split
    · next e =>
      cases e
      exact absurd rfl hc
    · rfl

/-- No exponent stands where a number ends. -/
theorem EndsNumber.exponent? {s : List Char} (h : EndsNumber s) :
    exponent? s = some (none, s) := by
  cases s with
  | nil => rfl
  | cons c rest =>
    have hc := (endsNumber_cons.mp h).2.2
    rw [exponent?.eq_def]
    split
    · next e =>
      cases e
      exact absurd rfl hc.1
    · next e =>
      cases e
      exact absurd rfl hc.2
    · rfl

/-- The first digit of a number is no sign, and starts no other value of JSON. -/
theorem exists_decimalDigits_eq_cons (n : Nat) :
    ∃ c cs, decimalDigits n = c :: cs ∧ c ≠ '-' ∧ c ≠ '+' ∧ c ≠ 'n' ∧ c ≠ 't' ∧ c ≠ 'f' ∧
      c ≠ '"' ∧ c ≠ '[' ∧ c ≠ '\x7b' := by
  obtain ⟨c, cs, hcs, hc⟩ := exists_digit_eq_decimalDigits n
  refine ⟨c, cs, hcs, ?_, ?_, ?_, ?_, ?_, ?_, ?_, ?_⟩ <;>
    · rintro rfl
      cases hc

/-- A whole number, with its sign or without, reads back as an exponent. -/
theorem signedDigits?_integer (i : Int) {rest : List Char} (hr : StartsNoDigit rest) :
    signedDigits? (integer i ++ rest) = some (i, rest) := by
  have htake := takeDigits_decimalDigits i.natAbs hr
  have hne := decimalDigits_ne_nil i.natAbs
  unfold integer
  by_cases hi : i < 0
  · have hneg : -(i.natAbs : Int) = i := by omega
    rw [if_pos hi, List.cons_append]
    generalize i.natAbs = n at *
    simp [signedDigits?, htake, hne, hneg]
  · have hpos : (i.natAbs : Int) = i := by omega
    obtain ⟨c, cs, hcs, hminus, hplus, -⟩ := exists_decimalDigits_eq_cons i.natAbs
    have hvalue := digitsValue_decimalDigits i.natAbs
    rw [if_neg hi]
    rw [hcs] at htake hvalue ⊢
    rw [List.cons_append] at htake ⊢
    simp [signedDigits?, htake, hvalue, hpos, hminus, hplus]

/-- A number is read as its sign, its digits, and what follows them. -/
theorem number?_digits (negative : Bool) (n : Nat) {s : List Char} (hs : StartsNoDigit s) :
    number? ((if negative then ['-'] else []) ++ (decimalDigits n ++ s)) =
      (fraction? s).bind fun found => (exponent? found.2).bind fun ending =>
        some (numberOfParts negative (decimalDigits n) found.1 ending.1, ending.2) := by
  have hwhole := wholeDigits?_decimalDigits n hs
  cases negative with
  | true => simp [number?, hwhole, Option.bind_eq_bind]
  | false =>
    obtain ⟨c, cs, hcs, hminus, -⟩ := exists_decimalDigits_eq_cons n
    rw [hcs] at hwhole ⊢
    rw [List.cons_append] at hwhole
    simp [number?, hwhole, hminus, Option.bind_eq_bind]

/-- A whole number reads back as such. -/
theorem number?_integer (i : Int) {rest : List Char} (hr : EndsNumber rest) :
    number? (integer i ++ rest) = some (.int i, rest) := by
  have hform : integer i ++ rest =
      (if decide (i < 0) then ['-'] else []) ++ (decimalDigits i.natAbs ++ rest) := by
    unfold integer
    by_cases hi : i < 0 <;> simp [hi]
  rw [hform, number?_digits _ _ hr.startsNoDigit, hr.fraction?, Option.bind_some, hr.exponent?,
    Option.bind_some]
  by_cases hi : i < 0
  · have hne : i.natAbs ≠ 0 := by omega
    have hneg : -(i.natAbs : Int) = i := by omega
    generalize i.natAbs = n at *
    simp [numberOfParts, hi, hne, hneg]
  · have hpos : (i.natAbs : Int) = i := by omega
    simp [numberOfParts, hi, hpos]

/-- A number with an exponent reads back as such. -/
theorem number?_decimal (negative : Bool) (coefficient : Nat) (exponent : Int) {rest : List Char}
    (hr : EndsNumber rest) :
    number? ((if negative then ['-'] else []) ++
        (decimalDigits coefficient ++ 'e' :: (integer exponent ++ rest))) =
      some (.decimal negative coefficient exponent, rest) := by
  have hs : StartsNoDigit ('e' :: (integer exponent ++ rest)) := startsNoDigit_cons.mpr rfl
  rw [number?_digits _ _ hs]
  simp [fraction?, exponent?, signedDigits?_integer exponent hr.startsNoDigit, numberOfParts]

/-! ## Values -/

/-- A written value starts with a character that is no space and closes nothing. -/
theorem exists_render_eq_cons (j : Json) :
    ∃ c cs, render j = c :: cs ∧ isSpace c = false ∧ c ≠ ']' := by
  have hdigits : ∀ n : Nat, ∃ c cs, decimalDigits n = c :: cs ∧ isSpace c = false ∧ c ≠ ']' := by
    intro n
    obtain ⟨c, cs, hcs, hc⟩ := exists_digit_eq_decimalDigits n
    refine ⟨c, cs, hcs, ?_, ?_⟩
    · cases hspace : isSpace c with
      | false => rfl
      | true =>
        simp only [isSpace, Bool.or_eq_true, beq_iff_eq] at hspace
        rcases hspace with ((rfl | rfl) | rfl) | rfl <;> cases hc
    · rintro rfl
      cases hc
  cases j with
  | null => exact ⟨'n', _, rfl, rfl, by decide⟩
  | bool b => cases b <;> exact ⟨_, _, rfl, rfl, by decide⟩
  | int i =>
    by_cases hi : i < 0
    · exact ⟨'-', decimalDigits i.natAbs, by rw [render, integer, if_pos hi], rfl, by decide⟩
    · simpa [render, integer, hi] using hdigits i.natAbs
  | decimal negative coefficient exponent =>
    cases negative with
    | true =>
      refine ⟨'-', decimalDigits coefficient ++ 'e' :: integer exponent, ?_, rfl, by decide⟩
      rw [render, if_pos rfl]
      rfl
    | false =>
      obtain ⟨c, cs, hcs, hc⟩ := hdigits coefficient
      exact ⟨c, cs ++ 'e' :: integer exponent, by simp [render, hcs], hc⟩
  | str s => exact ⟨'"', _, rfl, rfl, by decide⟩
  | arr items => exact ⟨'[', _, rfl, rfl, by decide⟩
  | obj members => exact ⟨'\x7b', _, rfl, rfl, by decide⟩
  | illegible => exact ⟨'n', _, rfl, rfl, by decide⟩

/-- Nothing is skipped before a character that is no space. -/
theorem skipSpace_cons {c : Char} (h : isSpace c = false) (s : List Char) :
    skipSpace (c :: s) = c :: s := by
  simp [skipSpace, h]

/-- Nothing is skipped before a written value. -/
theorem skipSpace_render (j : Json) (rest : List Char) :
    skipSpace (render j ++ rest) = render j ++ rest := by
  obtain ⟨c, cs, hcs, hc, -⟩ := exists_render_eq_cons j
  rw [hcs, List.cons_append, skipSpace_cons hc]

/-- What starts like a number is read as one. -/
theorem value?_eq_number? (fuel : Nat) {c : Char} (s : List Char) (hn : c ≠ 'n') (ht : c ≠ 't')
    (hf : c ≠ 'f') (hq : c ≠ '"') (ha : c ≠ '[') (ho : c ≠ '\x7b') :
    value? (fuel + 1) (c :: s) = number? (c :: s) := by
  rw [value?.eq_def]
  split
  · simp_all
  · split <;> simp_all

/-- Members with legible names make an object. -/
theorem objOfMembers_map_some (members : List (String × Json)) :
    objOfMembers (members.map fun m => (some m.1, m.2)) = .obj members := by
  have h : (members.map fun m => (some m.1, m.2)).mapM
      (fun m : Option String × Json => m.1.map (·, m.2)) = some members := by
    induction members with
    | nil => rfl
    | cons m members ih => simp [List.map_cons, List.mapM_cons, ih]
  rw [objOfMembers, h]

/-- Two items of an array have a comma between them. -/
theorem renderItems_cons_cons (item next : Json) (items : List Json) :
    renderItems (item :: next :: items) = render item ++ ',' :: renderItems (next :: items) := by
  rw [renderItems.eq_def]

/-- Two members of an object have a comma between them. -/
theorem renderMembers_cons_cons (member next : String × Json) (members : List (String × Json)) :
    renderMembers (member :: next :: members) = quote member.1 ++
      ':' :: (render member.2 ++ ',' :: renderMembers (next :: members)) := by
  rw [renderMembers.eq_def]

/-- The items of an array start with a character that is no space and closes nothing. -/
theorem exists_renderItems_eq_cons (item : Json) (items : List Json) :
    ∃ c cs, renderItems (item :: items) = c :: cs ∧ isSpace c = false ∧ c ≠ ']' := by
  obtain ⟨c, cs, hcs, hc⟩ := exists_render_eq_cons item
  cases items with
  | nil => exact ⟨c, cs, by simp [renderItems, hcs], hc⟩
  | cons next items => exact ⟨c, _, by rw [renderItems_cons_cons, hcs, List.cons_append], hc⟩

/-- The members of an object start with a quote. -/
theorem exists_renderMembers_eq_cons (member : String × Json) (members : List (String × Json)) :
    ∃ cs, renderMembers (member :: members) = '"' :: cs := by
  cases members with
  | nil => exact ⟨_, by rw [renderMembers, quote, List.cons_append]⟩
  | cons next members => exact ⟨_, by rw [renderMembers_cons_cons, quote, List.cons_append]⟩

mutual

/-- A sound value reads back, whatever stands behind it that makes no number longer. -/
theorem value?_render : (j : Json) → j.isSound = true → ∀ (fuel : Nat) (rest : List Char),
    2 * (render j).length + 1 ≤ fuel → EndsNumber rest →
      value? fuel (render j ++ rest) = some (j, rest)
  | .null, _, fuel + 1, rest, _, _ => rfl
  | .bool true, _, fuel + 1, rest, _, _ => rfl
  | .bool false, _, fuel + 1, rest, _, _ => rfl
  | .int i, _, fuel + 1, rest, _, hr => by
    have hread := number?_integer i hr
    rw [render]
    unfold integer at hread ⊢
    split
    · next hi =>
      rw [if_pos hi] at hread
      rw [List.cons_append, value?_eq_number? _ _ (by decide) (by decide) (by decide) (by decide)
        (by decide) (by decide)]
      exact hread
    · next hi =>
      obtain ⟨c, cs, hcs, -, -, hn, ht, hf, hq, ha, ho⟩ := exists_decimalDigits_eq_cons i.natAbs
      rw [if_neg hi, hcs] at hread
      rw [hcs, List.cons_append, value?_eq_number? _ _ hn ht hf hq ha ho]
      exact hread
  | .decimal negative coefficient exponent, _, fuel + 1, rest, _, hr => by
    have hread := number?_decimal negative coefficient exponent hr
    simp only [render, List.append_assoc, List.cons_append]
    cases negative with
    | true =>
      simp only [if_true, List.cons_append, List.nil_append] at hread ⊢
      rw [value?_eq_number? _ _ (by decide) (by decide) (by decide) (by decide) (by decide)
        (by decide)]
      exact hread
    | false =>
      obtain ⟨c, cs, hcs, -, -, hn, ht, hf, hq, ha, ho⟩ := exists_decimalDigits_eq_cons coefficient
      simp only [hcs, Bool.false_eq_true, if_false, List.nil_append, List.cons_append] at hread ⊢
      rw [value?_eq_number? _ _ hn ht hf hq ha ho]
      exact hread
  | .str s, _, fuel + 1, rest, _, _ => by
    simp only [render, quote, List.cons_append, List.append_assoc, List.nil_append, value?]
    rw [scanString_escape, Option.map_some, strOfPieces_map_char]
  | .arr [], _, fuel + 1, rest, _, _ => by
    simp [render, renderItems, value?, skipSpace, isSpace]
  | .arr (item :: items), hs, fuel + 1, rest, hf, _ => by
    have hread := items?_renderItems item items hs fuel rest (by
      simp only [render, List.length_cons, List.length_append] at hf
      omega)
    obtain ⟨c, cs, hcs, hspace, hclose⟩ := exists_renderItems_eq_cons item items
    simp only [render, List.cons_append, List.append_assoc, List.nil_append, value?]
    rw [hcs] at hread ⊢
    rw [List.cons_append] at hread ⊢
    simp [skipSpace, hspace, hclose, hread]
  | .obj [], _, fuel + 1, rest, _, _ => by
    simp [render, renderMembers, value?, skipSpace, isSpace]
  | .obj (member :: members), hs, fuel + 1, rest, hf, _ => by
    have hread := members?_renderMembers member members hs fuel rest (by
      simp only [render, List.length_cons, List.length_append] at hf
      omega)
    obtain ⟨cs, hcs⟩ := exists_renderMembers_eq_cons member members
    simp only [render, List.cons_append, List.append_assoc, List.nil_append, value?]
    rw [hcs] at hread ⊢
    rw [List.cons_append] at hread ⊢
    simp only [skipSpace_cons (c := '"') rfl]
    show Option.map _ (members? fuel ('"' :: (cs ++ '\x7d' :: rest))) = _
    rw [hread, Option.map_some, objOfMembers_map_some]
  | .illegible, hs, _, _, _, _ => by simp [isSound] at hs

/-- The items of an array read back, up to its closing bracket. -/
theorem items?_renderItems : (item : Json) → (items : List Json) →
    areSoundItems (item :: items) = true → ∀ (fuel : Nat) (rest : List Char),
      2 * (renderItems (item :: items)).length + 2 ≤ fuel →
        items? fuel (renderItems (item :: items) ++ ']' :: rest) = some (item :: items, rest)
  | item, [], hs, fuel + 1, rest, hf => by
    have hread := value?_render item (by simpa [areSoundItems] using hs) fuel
      (']' :: rest) (by simpa [renderItems] using hf) (by simp)
    rw [renderItems, items?, hread]
    simp [skipSpace_cons (c := ']') rfl]
  | item, next :: items, hs, fuel + 1, rest, hf => by
    rw [areSoundItems, Bool.and_eq_true] at hs
    rw [renderItems_cons_cons] at hf ⊢
    simp only [List.length_append, List.length_cons] at hf
    have hread := value?_render item hs.1 fuel
      (',' :: (renderItems (next :: items) ++ ']' :: rest)) (by omega) (by simp)
    have hrest := items?_renderItems next items hs.2 fuel rest (by omega)
    obtain ⟨c, cs, hcs, hspace, -⟩ := exists_renderItems_eq_cons next items
    rw [List.append_assoc, List.cons_append, items?, hread]
    rw [hcs, List.cons_append] at hrest ⊢
    simp [skipSpace_cons (c := ',') rfl, skipSpace_cons hspace, hrest]

/-- The members of an object read back, up to its closing brace. -/
theorem members?_renderMembers : (member : String × Json) → (members : List (String × Json)) →
    areSoundMembers (member :: members) = true → ∀ (fuel : Nat) (rest : List Char),
      2 * (renderMembers (member :: members)).length + 2 ≤ fuel →
        members? fuel (renderMembers (member :: members) ++ '\x7d' :: rest) =
          some ((member :: members).map fun m => (some m.1, m.2), rest)
  | (name, value), [], hs, fuel + 1, rest, hf => by
    simp only [renderMembers, quote, List.length_append, List.length_cons] at hf
    have hread := value?_render value (by simpa [areSoundMembers] using hs) fuel
      ('\x7d' :: rest) (by omega) (by simp)
    simp only [renderMembers, quote, List.cons_append, List.append_assoc, List.nil_append,
      members?]
    rw [scanString_escape]
    simp [skipSpace_cons (c := ':') rfl, skipSpace_render, hread,
      skipSpace_cons (c := '\x7d') rfl, pairUp_map_char]
  | (name, value), next :: members, hs, fuel + 1, rest, hf => by
    rw [areSoundMembers, Bool.and_eq_true] at hs
    rw [renderMembers_cons_cons] at hf ⊢
    simp only [quote, List.length_append, List.length_cons] at hf
    have hread := value?_render value hs.1 fuel
      (',' :: (renderMembers (next :: members) ++ '\x7d' :: rest)) (by omega) (by simp)
    have hrest := members?_renderMembers next members hs.2 fuel rest (by omega)
    obtain ⟨cs, hcs⟩ := exists_renderMembers_eq_cons next members
    simp only [quote, List.cons_append, List.append_assoc, List.nil_append, members?]
    rw [scanString_escape]
    rw [hcs, List.cons_append] at hread hrest ⊢
    simp [skipSpace_cons (c := ':') rfl, skipSpace_render, hread,
      skipSpace_cons (c := ',') rfl, skipSpace_cons (c := '"') rfl, hrest, pairUp_map_char]

end

/-- A sound value in compact form reads back. -/
theorem parse?_compact {j : Json} (hs : j.isSound = true) : parse? j.compact = some j := by
  have hread := value?_render j hs (enoughFuel (render j)) []
    (by simp [enoughFuel]) endsNumber_nil
  have hskip := skipSpace_render j []
  rw [List.append_nil] at hread hskip
  simp only [parse?, compact, String.toList_ofList]
  rw [hskip, hread]
  rfl

/-- A value that a strict reader takes reads back strictly. -/
theorem parseStrict?_compact {j : Json} (hs : j.isStrict = true) :
    parseStrict? j.compact = some j := by
  have hsound : j.isSound = true := (Bool.and_eq_true_iff.mp hs).1
  rw [parseStrict?, parse?_compact hsound, Option.filter_some, if_pos hs]

/-! ## One line -/

/-- Every character of a text can be shown: it is no control character below the space. -/
def Showable (s : List Char) : Prop :=
  ∀ c ∈ s, 32 ≤ c.toNat

/-- A text can be shown when its first character and the rest can. -/
@[simp] theorem showable_cons {c : Char} {s : List Char} :
    Showable (c :: s) ↔ 32 ≤ c.toNat ∧ Showable s :=
  List.forall_mem_cons

/-- A text can be shown when its two parts can. -/
@[simp] theorem showable_append {s t : List Char} :
    Showable (s ++ t) ↔ Showable s ∧ Showable t :=
  List.forall_mem_append

/-- The empty text can be shown. -/
@[simp] theorem showable_nil : Showable [] := by
  intro c hc
  cases hc

/-- Digits can be shown. -/
theorem showable_decimalDigits (n : Nat) : Showable (decimalDigits n) := by
  intro c hc
  have hdigit := Char.isDigit_iff_toNat.mp (isDigit_of_mem_decimalDigits hc)
  exact Nat.le_trans (by decide) hdigit.1

/-- A whole number can be shown. -/
theorem showable_integer (i : Int) : Showable (integer i) := by
  have h := showable_decimalDigits i.natAbs
  unfold integer
  split
  · exact showable_cons.mpr ⟨by decide, h⟩
  · exact h

/-- The two digits of a control character can be shown. -/
theorem le_toNat_hexDigit : ∀ n < 16, 32 ≤ (hexDigit n).toNat := by
  decide

/-- An escaped character can be shown. -/
theorem showable_escapeChar (c : Char) : Showable (escapeChar c) := by
  obtain ⟨e, -, he, hform⟩ | ⟨hcontrol, hform⟩ | ⟨-, -, hcontrol, hform⟩ := escapeChar_cases c
  · rw [hform]
    simp [he]
  · have h₁ := le_toNat_hexDigit (c.toNat / 16) (by omega)
    have h₂ := le_toNat_hexDigit (c.toNat % 16) (by omega)
    rw [hform]
    simp [h₁, h₂]
  · rw [hform]
    simpa using hcontrol

/-- A quoted text can be shown, whatever it holds. -/
theorem showable_quote (s : String) : Showable (quote s) := by
  have hescape : Showable (escape s.toList) := by
    intro c hc
    obtain ⟨d, -, hd⟩ := List.mem_flatMap.mp hc
    exact showable_escapeChar d c hd
  simp [quote, hescape]

mutual

/-- A value in compact form can be shown: it stays on one line. -/
theorem showable_render : (j : Json) → Showable (render j)
  | .null => by simp [render]
  | .bool true => by simp [render]
  | .bool false => by simp [render]
  | .int i => by
    rw [render]
    exact showable_integer i
  | .decimal negative coefficient exponent => by
    have h₁ := showable_decimalDigits coefficient
    have h₂ := showable_integer exponent
    cases negative <;> simp [render, h₁, h₂]
  | .str s => by
    rw [render]
    exact showable_quote s
  | .arr items => by
    have h := showable_renderItems items
    simp [render, h]
  | .obj members => by
    have h := showable_renderMembers members
    simp [render, h]
  | .illegible => by simp [render]

/-- The items of an array can be shown. -/
theorem showable_renderItems : (items : List Json) → Showable (renderItems items)
  | [] => by simp [renderItems]
  | [item] => by
    rw [renderItems]
    exact showable_render item
  | item :: next :: items => by
    have h₁ := showable_render item
    have h₂ := showable_renderItems (next :: items)
    simp [renderItems_cons_cons, h₁, h₂]

/-- The members of an object can be shown. -/
theorem showable_renderMembers : (members : List (String × Json)) →
    Showable (renderMembers members)
  | [] => by simp [renderMembers]
  | [(name, value)] => by
    have h := showable_render value
    simp [renderMembers, showable_quote, h]
  | (name, value) :: next :: members => by
    have h₁ := showable_render value
    have h₂ := showable_renderMembers (next :: members)
    simp [renderMembers_cons_cons, showable_quote, h₁, h₂]

end

end LintDebt.Json
