import LintDebt.Proofs.Json.RoundTrip
import LintDebt.Text.Blank
import Mathlib.Data.List.TakeWhile

/-!
# Reading in front of more text

What a reader has taken off a text it takes off as well when more text stands behind, as long as it has
seen where its part ends.

* `LintDebt.Json.Steady`: a reader that is not changed by more text when it leaves something.
* `LintDebt.Json.steady_number?`, `scanString_append`: numbers and strings are read the same.
* `LintDebt.Json.readsOn`: so are values, items and members.
* `LintDebt.Json.parse?_append_eq_none`: the whole text of an object cannot be continued.
* `LintDebt.Json.parse?_of_space_append`, `parse?_of_blank_append`: space in front of a text does not
  matter, and no other blank characters may stand there.
-/

namespace LintDebt.Json

open LintDebt.Text (takeDigits digitsValue)

/-! ## Steady readers -/

/-- More text behind changes nothing about what a reader takes off a text of which it leaves
something. -/
def Steady {α : Type} (read : List Char → Option (α × List Char)) : Prop :=
  ∀ {s a rest} (more : List Char), read s = some (a, rest) → rest ≠ [] →
    read (s ++ more) = some (a, rest ++ more)

/-- Digits that something stands behind are taken off the same. -/
theorem takeDigits_append_more {s : List Char} (h : (takeDigits s).2 ≠ []) (more : List Char) :
    takeDigits (s ++ more) = ((takeDigits s).1, (takeDigits s).2 ++ more) := by
  induction s with
  | nil => exact absurd rfl h
  | cons c s ih =>
    unfold takeDigits at h ih ⊢
    cases hc : c.isDigit with
    | false => simp [hc]
    | true =>
      rw [List.dropWhile_cons, if_pos hc] at h
      have hrest := ih h
      rw [Prod.mk.injEq] at hrest
      simp [hc, hrest.1, hrest.2]

/-- Space that something stands behind is skipped the same. -/
theorem skipSpace_append {s : List Char} (h : skipSpace s ≠ []) (more : List Char) :
    skipSpace (s ++ more) = skipSpace s ++ more := by
  unfold skipSpace at h ⊢
  rw [List.dropWhile_append, if_neg (by rwa [List.isEmpty_iff])]

/-! ## Numbers -/

/-- Nothing is left of nothing. -/
theorem ne_nil_of_fraction? {s digits rest : List Char} (h : fraction? s = some (digits, rest))
    (hrest : rest ≠ []) : s ≠ [] := by
  rintro rfl
  cases h
  exact hrest rfl

/-- Nothing is left of nothing. -/
theorem ne_nil_of_exponent? {s rest : List Char} {exponent : Option Int}
    (h : exponent? s = some (exponent, rest)) (hrest : rest ≠ []) : s ≠ [] := by
  rintro rfl
  cases h
  exact hrest rfl

/-- The digits before the point are read the same. -/
theorem steady_wholeDigits? : Steady wholeDigits? := by
  intro s digits rest more h hrest
  rw [wholeDigits?.eq_def] at h
  split at h
  · next s =>
    cases h
    rfl
  · next hzero =>
    dsimp only at h
    split at h
    · cases h
    · next hdigits =>
      cases h
      cases s with
      | nil => exact absurd rfl hrest
      | cons c s =>
        rw [wholeDigits?.eq_def]
        split
        · next e =>
          cases e
          exact absurd rfl (hzero _)
        · dsimp only
          rw [takeDigits_append_more hrest, if_neg hdigits]

/-- A fraction is read the same. -/
theorem steady_fraction? : Steady fraction? := by
  intro s digits rest more h hrest
  rw [fraction?.eq_def] at h
  split at h
  · next s =>
    dsimp only at h
    split at h
    · cases h
    · next hdigits =>
      cases h
      rw [List.cons_append, fraction?]
      dsimp only
      rw [takeDigits_append_more hrest, if_neg hdigits]
  · next hpoint =>
    cases h
    cases s with
    | nil => exact absurd rfl hrest
    | cons c s =>
      rw [fraction?.eq_def]
      split
      · next e =>
        cases e
        exact absurd rfl (hpoint _)
      · rfl

/-- The digits of an exponent behind its sign. -/
def unsignedDigits? (negative : Bool) (s : List Char) : Option (Int × List Char) :=
  let digits := (takeDigits s).1
  if digits.isEmpty then none
  else some (if negative then -(digitsValue digits : Int) else digitsValue digits, (takeDigits s).2)

/-- The digits behind a sign are read the same. -/
theorem steady_unsignedDigits? (negative : Bool) : Steady (unsignedDigits? negative) := by
  intro s n rest more h hrest
  unfold unsignedDigits? at h ⊢
  dsimp only at h ⊢
  split at h
  · cases h
  · next hdigits =>
    cases h
    rw [takeDigits_append_more hrest, if_neg hdigits]

/-- The digits of an exponent are read the same, with or without a sign. -/
theorem steady_signedDigits? : Steady signedDigits? := by
  intro s n rest more h hrest
  cases s with
  | nil => cases h
  | cons c s =>
    by_cases hminus : c = '-'
    · subst hminus
      exact steady_unsignedDigits? true more h hrest
    by_cases hplus : c = '+'
    · subst hplus
      exact steady_unsignedDigits? false more h hrest
    have hform (s : List Char) : signedDigits? (c :: s) = unsignedDigits? false (c :: s) := by
      simp [signedDigits?, unsignedDigits?, hminus, hplus]
    rw [hform] at h
    rw [List.cons_append, hform]
    exact steady_unsignedDigits? false more h hrest

/-- An exponent is read the same. -/
theorem steady_exponent? : Steady exponent? := by
  intro s n rest more h hrest
  have hform (s : List Char) :
      (signedDigits? s).map (Prod.map some id) = some (n, rest) →
        (signedDigits? (s ++ more)).map (Prod.map some id) = some (n, rest ++ more) := by
    intro hs
    obtain ⟨found, hfound, heq⟩ := Option.map_eq_some_iff.mp hs
    cases heq
    rw [steady_signedDigits? more hfound hrest]
    rfl
  rw [exponent?.eq_def] at h
  split at h
  · exact hform _ h
  · exact hform _ h
  · next hsmall hlarge =>
    cases h
    cases s with
    | nil => exact absurd rfl hrest
    | cons c s =>
      rw [exponent?.eq_def]
      split
      · next e =>
        cases e
        exact absurd rfl (hsmall _)
      · next e =>
        cases e
        exact absurd rfl (hlarge _)
      · rfl

/-- A number behind its sign. -/
def unsigned? (negative : Bool) (s : List Char) : Option (Json × List Char) :=
  (wholeDigits? s).bind fun whole => (fraction? whole.2).bind fun fraction =>
    (exponent? fraction.2).bind fun exponent =>
      some (numberOfParts negative whole.1 fraction.1 exponent.1, exponent.2)

/-- A number is read the same behind its sign. -/
theorem steady_unsigned? (negative : Bool) : Steady (unsigned? negative) := by
  intro s j rest more h hrest
  obtain ⟨⟨whole, s₁⟩, hwhole, h⟩ := Option.bind_eq_some_iff.mp h
  obtain ⟨⟨fraction, s₂⟩, hfraction, h⟩ := Option.bind_eq_some_iff.mp h
  obtain ⟨⟨exponent, s₃⟩, hexponent, h⟩ := Option.bind_eq_some_iff.mp h
  cases h
  have hs₂ : s₂ ≠ [] := ne_nil_of_exponent? hexponent hrest
  have hs₁ : s₁ ≠ [] := ne_nil_of_fraction? hfraction hs₂
  unfold unsigned?
  rw [steady_wholeDigits? more hwhole hs₁, Option.bind_some, steady_fraction? more hfraction hs₂,
    Option.bind_some, steady_exponent? more hexponent hrest, Option.bind_some]

/-- A number is read the same, with or without a sign. -/
theorem steady_number? : Steady number? := by
  intro s j rest more h hrest
  cases s with
  | nil => cases h
  | cons c s =>
    by_cases hminus : c = '-'
    · subst hminus
      exact steady_unsigned? true more h hrest
    · have hform (s : List Char) : number? (c :: s) = unsigned? false (c :: s) := by
        simp [number?, unsigned?, hminus, Option.bind_eq_bind]
      rw [hform] at h
      rw [List.cons_append, hform]
      exact steady_unsigned? false more h hrest

/-! ## Strings and names -/

/-- A string is scanned the same, up to its closing quote. -/
theorem scanString_append {s : List Char} {pieces : List Piece} {rest : List Char} (more : List Char)
    (h : scanString s = some (pieces, rest)) :
    scanString (s ++ more) = some (pieces, rest ++ more) := by
  induction s using scanString.induct generalizing pieces rest with
  | case1 => cases h
  | case2 s =>
    cases h
    rfl
  | case3 a b c d s ih =>
    rw [scanString] at h
    obtain ⟨unit, hunit, h⟩ := Option.bind_eq_some_iff.mp h
    obtain ⟨found, hfound, h⟩ := Option.bind_eq_some_iff.mp h
    cases h
    simp only [List.cons_append]
    rw [scanString, hunit, ih hfound]
    rfl
  | case4 c s hunit ih =>
    rw [scanString.eq_4 c s hunit] at h
    obtain ⟨char, hchar, h⟩ := Option.bind_eq_some_iff.mp h
    obtain ⟨found, hfound, h⟩ := Option.bind_eq_some_iff.mp h
    cases h
    simp only [List.cons_append]
    rw [scanString_letter hchar, ih hfound]
    rfl
  | case5 c s hquote hunit hletter hplain =>
    rw [scanString.eq_5 c s hquote hunit hletter, if_pos hplain] at h
    cases h
  | case6 c s hquote hunit hletter hplain ih =>
    rw [scanString.eq_5 c s hquote hunit hletter, if_neg hplain] at h
    obtain ⟨found, hfound, h⟩ := Option.bind_eq_some_iff.mp h
    cases h
    rw [Bool.or_eq_true, not_or, decide_eq_true_eq, beq_iff_eq] at hplain
    rw [List.cons_append, scanString_plain hquote hplain.2 hplain.1, ih hfound]
    rfl

/-- A name is taken off the same. -/
theorem expect?_append {expected s rest : List Char} (more : List Char)
    (h : expect? expected s = some rest) : expect? expected (s ++ more) = some (rest ++ more) := by
  induction expected generalizing s with
  | nil =>
    cases h
    rfl
  | cons e expected ih =>
    cases s with
    | nil => cases h
    | cons c s =>
      rw [expect?] at h
      rw [List.cons_append, expect?]
      split at h
      · next hsame =>
        rw [if_pos hsame]
        exact ih h
      · cases h

/-! ## Values -/

/-- What is read with some fuel is read with other fuel when more text stands behind: items and members
up to their closing bracket or brace, an object as well, and any value that something is left behind. -/
structure ReadsOn (fuel fuel' : Nat) : Prop where
  value : ∀ {s j rest} (more : List Char), value? fuel s = some (j, rest) →
    (rest ≠ [] ∨ ∃ t, s = '\x7b' :: t) → value? fuel' (s ++ more) = some (j, rest ++ more)
  items : ∀ {s items rest} (more : List Char), items? fuel s = some (items, rest) →
    items? fuel' (s ++ more) = some (items, rest ++ more)
  members : ∀ {s members rest} (more : List Char), members? fuel s = some (members, rest) →
    members? fuel' (s ++ more) = some (members, rest ++ more)

/-- No value is read from nothing. -/
theorem value?_nil (fuel : Nat) : value? fuel [] = none := by
  cases fuel <;> rfl

/-- No items are read from nothing. -/
theorem items?_nil (fuel : Nat) : items? fuel [] = none := by
  cases fuel with
  | zero => rfl
  | succ fuel => rw [items?, value?_nil]; rfl

/-- No members are read from nothing. -/
theorem members?_nil (fuel : Nat) : members? fuel [] = none := by
  cases fuel <;> rfl

section ReadsOn

variable {fuel fuel' : Nat} {s t rest : List Char} {c : Char}

/-- An array that does not close at once has items. -/
theorem value?_array (hskip : skipSpace s = c :: t) (hc : c ≠ ']') :
    value? (fuel + 1) ('[' :: s) =
      (items? fuel (c :: t)).map fun (items, rest) => (.arr items, rest) := by
  rw [value?, hskip]
  split
  · next e =>
    cases e
    exact absurd rfl hc
  · rfl

/-- An object that does not close at once has members. -/
theorem value?_object (hskip : skipSpace s = c :: t) (hc : c ≠ '\x7d') :
    value? (fuel + 1) ('\x7b' :: s) =
      (members? fuel (c :: t)).map fun (members, rest) => (objOfMembers members, rest) := by
  rw [value?, hskip]
  split
  · next e =>
    cases e
    exact absurd rfl hc
  · rfl

/-- An array is read as far as its items are. -/
theorem ReadsOn.array (h : ReadsOn fuel fuel') {j : Json} (more : List Char)
    (hj : value? (fuel + 1) ('[' :: s) = some (j, rest)) :
    value? (fuel' + 1) ('[' :: (s ++ more)) = some (j, rest ++ more) := by
  cases hskip : skipSpace s with
  | nil =>
    rw [value?, hskip] at hj
    simp [items?_nil] at hj
  | cons c t =>
    have hmore : skipSpace (s ++ more) = c :: (t ++ more) := by
      rw [skipSpace_append (hskip ▸ List.cons_ne_nil c t), hskip, List.cons_append]
    by_cases hc : c = ']'
    · subst hc
      rw [value?, hskip] at hj
      cases hj
      rw [value?, hmore]
      rfl
    · rw [value?_array hskip hc] at hj
      obtain ⟨⟨items, rest⟩, hitems, hj⟩ := Option.map_eq_some_iff.mp hj
      cases hj
      rw [value?_array hmore hc, ← List.cons_append, h.items more hitems]
      rfl

/-- An object is read as far as its members are. -/
theorem ReadsOn.object (h : ReadsOn fuel fuel') {j : Json} (more : List Char)
    (hj : value? (fuel + 1) ('\x7b' :: s) = some (j, rest)) :
    value? (fuel' + 1) ('\x7b' :: (s ++ more)) = some (j, rest ++ more) := by
  cases hskip : skipSpace s with
  | nil =>
    rw [value?, hskip] at hj
    simp [members?_nil] at hj
  | cons c t =>
    have hmore : skipSpace (s ++ more) = c :: (t ++ more) := by
      rw [skipSpace_append (hskip ▸ List.cons_ne_nil c t), hskip, List.cons_append]
    by_cases hc : c = '\x7d'
    · subst hc
      rw [value?, hskip] at hj
      cases hj
      rw [value?, hmore]
      rfl
    · rw [value?_object hskip hc] at hj
      obtain ⟨⟨members, rest⟩, hmembers, hj⟩ := Option.map_eq_some_iff.mp hj
      cases hj
      rw [value?_object hmore hc, ← List.cons_append, h.members more hmembers]
      rfl

/-- A value is read as far as its parts are. -/
theorem ReadsOn.value_succ (h : ReadsOn fuel fuel') {j : Json} (more : List Char)
    (hj : value? (fuel + 1) s = some (j, rest)) (hrest : rest ≠ [] ∨ ∃ t, s = '\x7b' :: t) :
    value? (fuel' + 1) (s ++ more) = some (j, rest ++ more) := by
  have hfound := hj
  rw [value?.eq_def] at hfound
  dsimp only at hfound
  split at hfound
  · obtain ⟨t, ht, hsome⟩ := Option.map_eq_some_iff.mp hfound
    cases hsome
    rw [List.cons_append, value?, expect?_append more ht]
    rfl
  · obtain ⟨t, ht, hsome⟩ := Option.map_eq_some_iff.mp hfound
    cases hsome
    rw [List.cons_append, value?, expect?_append more ht]
    rfl
  · obtain ⟨t, ht, hsome⟩ := Option.map_eq_some_iff.mp hfound
    cases hsome
    rw [List.cons_append, value?, expect?_append more ht]
    rfl
  · obtain ⟨⟨pieces, t⟩, ht, hsome⟩ := Option.map_eq_some_iff.mp hfound
    cases hsome
    rw [List.cons_append, value?, scanString_append more ht]
    rfl
  · exact h.array more hj
  · exact h.object more hj
  · next hn ht hf hq ha ho =>
    cases s with
    | nil => cases hfound
    | cons c s =>
      have hleft : rest ≠ [] := by
        refine hrest.resolve_right ?_
        rintro ⟨t, e⟩
        exact ho t e
      have hne (d : Char) (hd : ∀ t, c :: s = d :: t → False) : c ≠ d := by
        rintro rfl
        exact hd s rfl
      rw [List.cons_append, value?_eq_number? _ _ (hne _ hn) (hne _ ht) (hne _ hf) (hne _ hq)
        (hne _ ha) (hne _ ho)]
      exact steady_number? more hfound hleft

/-- Items are read as far as each of them is. -/
theorem ReadsOn.items_succ (h : ReadsOn fuel fuel') {items : List Json} (more : List Char)
    (hitems : items? (fuel + 1) s = some (items, rest)) :
    items? (fuel' + 1) (s ++ more) = some (items, rest ++ more) := by
  rw [items?] at hitems
  obtain ⟨⟨item, t⟩, hitem, hitems⟩ := Option.bind_eq_some_iff.mp hitems
  dsimp only at hitems
  have hskip : skipSpace t ≠ [] := by
    intro hnil
    rw [hnil] at hitems
    cases hitems
  have ht : t ≠ [] := by
    rintro rfl
    exact hskip rfl
  rw [items?, h.value more hitem (Or.inl ht)]
  dsimp only [Option.bind_eq_bind, Option.bind_some]
  rw [skipSpace_append hskip more]
  split at hitems
  · next e =>
    cases hitems
    rw [e]
    rfl
  · next u e =>
    obtain ⟨⟨later, v⟩, hlater, hsome⟩ := Option.bind_eq_some_iff.mp hitems
    cases hsome
    have hu : skipSpace u ≠ [] := by
      intro hnil
      rw [hnil, items?_nil] at hlater
      cases hlater
    rw [e, List.cons_append]
    show (items? fuel' (skipSpace (u ++ more))).bind _ = _
    rw [skipSpace_append hu, h.items more hlater]
    rfl
  · cases hitems

/-- Members are read as far as each of them is. -/
theorem ReadsOn.members_succ (h : ReadsOn fuel fuel') {members : List (Option String × Json)}
    (more : List Char) (hmembers : members? (fuel + 1) s = some (members, rest)) :
    members? (fuel' + 1) (s ++ more) = some (members, rest ++ more) := by
  rw [members?.eq_def] at hmembers
  dsimp only at hmembers
  split at hmembers
  · next s =>
    obtain ⟨⟨pieces, t⟩, hpieces, hmembers⟩ := Option.bind_eq_some_iff.mp hmembers
    dsimp only at hmembers
    split at hmembers
    · next u hcolon =>
      obtain ⟨⟨value, v⟩, hvalue, hmembers⟩ := Option.bind_eq_some_iff.mp hmembers
      dsimp only at hmembers
      have hskip : skipSpace v ≠ [] := by
        intro hnil
        rw [hnil] at hmembers
        cases hmembers
      have hv : v ≠ [] := by
        rintro rfl
        exact hskip rfl
      have hu : skipSpace u ≠ [] := by
        intro hnil
        rw [hnil, value?_nil] at hvalue
        cases hvalue
      rw [List.cons_append, members?]
      dsimp only [Option.bind_eq_bind]
      rw [scanString_append more hpieces, Option.bind_some]
      rw [skipSpace_append (hcolon ▸ List.cons_ne_nil _ _), hcolon, List.cons_append]
      show (value? fuel' (skipSpace (u ++ more))).bind _ = _
      rw [skipSpace_append hu, h.value more hvalue (Or.inl hv), Option.bind_some]
      rw [skipSpace_append hskip]
      split at hmembers
      · next e =>
        cases hmembers
        rw [e]
        rfl
      · next w e =>
        obtain ⟨⟨later, x⟩, hlater, hsome⟩ := Option.bind_eq_some_iff.mp hmembers
        cases hsome
        have hw : skipSpace w ≠ [] := by
          intro hnil
          rw [hnil, members?_nil] at hlater
          cases hlater
        rw [e, List.cons_append]
        show (members? fuel' (skipSpace (w ++ more))).bind _ = _
        rw [skipSpace_append hw, h.members more hlater]
        rfl
      · cases hmembers
    · cases hmembers
  · cases hmembers

end ReadsOn

/-- Whatever is read with some fuel is read with at least as much in front of more text. -/
theorem readsOn {fuel fuel' : Nat} (hle : fuel ≤ fuel') : ReadsOn fuel fuel' := by
  induction fuel generalizing fuel' with
  | zero => exact ⟨nofun, nofun, nofun⟩
  | succ fuel ih =>
    obtain ⟨k, rfl⟩ : ∃ k, fuel' = k + 1 := ⟨fuel' - 1, by omega⟩
    have h := ih (Nat.le_of_succ_le_succ hle)
    exact ⟨h.value_succ, h.items_succ, h.members_succ⟩

/-! ## Whole texts -/

/-- The parts of a number make no object. -/
theorem numberOfParts_ne_obj (negative : Bool) (whole fraction : List Char) (exponent : Option Int)
    (members : List (String × Json)) :
    numberOfParts negative whole fraction exponent ≠ .obj members := by
  unfold numberOfParts
  dsimp only
  split
  · intro e
    cases e
  · intro e
    cases e

/-- A number is no object. -/
theorem ne_obj_of_number? {s rest : List Char} {j : Json} (h : number? s = some (j, rest))
    (members : List (String × Json)) : j ≠ .obj members := by
  obtain ⟨whole, -, h⟩ := Option.bind_eq_some_iff.mp h
  obtain ⟨fraction, -, h⟩ := Option.bind_eq_some_iff.mp h
  obtain ⟨exponent, -, h⟩ := Option.bind_eq_some_iff.mp h
  cases h
  exact numberOfParts_ne_obj _ _ _ _ members

/-- A string is no object. -/
theorem strOfPieces_ne_obj (pieces : List Piece) (members : List (String × Json)) :
    strOfPieces pieces ≠ .obj members := by
  unfold strOfPieces
  split
  · intro e
    cases e
  · intro e
    cases e

/-- An object starts with a brace. -/
theorem exists_eq_cons_of_value?_obj {fuel : Nat} {s rest : List Char}
    {members : List (String × Json)} (h : value? fuel s = some (.obj members, rest)) :
    ∃ t, s = '\x7b' :: t := by
  cases fuel with
  | zero => cases h
  | succ fuel =>
    rw [value?.eq_def] at h
    dsimp only at h
    split at h
    · obtain ⟨t, -, e⟩ := Option.map_eq_some_iff.mp h
      cases e
    · obtain ⟨t, -, e⟩ := Option.map_eq_some_iff.mp h
      cases e
    · obtain ⟨t, -, e⟩ := Option.map_eq_some_iff.mp h
      cases e
    · obtain ⟨⟨pieces, t⟩, -, e⟩ := Option.map_eq_some_iff.mp h
      exact absurd (congrArg Prod.fst e) (strOfPieces_ne_obj pieces members)
    · split at h
      · cases h
      · obtain ⟨t, -, e⟩ := Option.map_eq_some_iff.mp h
        cases e
    · exact ⟨_, rfl⟩
    · exact absurd rfl (ne_obj_of_number? h members)

/-- The whole text of an object cannot be continued by anything but space. -/
theorem parse?_append_eq_none {text more : String} {members : List (String × Json)}
    (h : parse? text = some (.obj members)) (hmore : skipSpace more.toList ≠ []) :
    parse? (text ++ more) = none := by
  obtain ⟨⟨j, rest⟩, hvalue, hrest⟩ := Option.bind_eq_some_iff.mp h
  dsimp only at hrest
  split at hrest
  · next hspace =>
    cases hrest
    have hskip : skipSpace text.toList ≠ [] := by
      obtain ⟨t, ht⟩ := exists_eq_cons_of_value?_obj hvalue
      exact ht ▸ List.cons_ne_nil _ t
    have hfuel : enoughFuel (skipSpace text.toList) ≤
        enoughFuel (skipSpace text.toList ++ more.toList) := by
      unfold enoughFuel
      rw [List.length_append]
      omega
    have hlonger := (readsOn hfuel).value more.toList hvalue
      (Or.inr (exists_eq_cons_of_value?_obj hvalue))
    have hleft : skipSpace (rest ++ more.toList) = skipSpace more.toList := by
      unfold skipSpace at hspace ⊢
      rw [List.dropWhile_append, if_pos hspace]
    unfold parse?
    rw [String.toList_append, skipSpace_append hskip]
    dsimp only [Option.bind_eq_bind]
    rw [hlonger, Option.bind_some]
    dsimp only
    rw [hleft, if_neg (by rwa [List.isEmpty_iff])]
  · cases hrest

/-- A character that is blank starts no value. -/
theorem value?_of_isBlank {c : Char} (h : Text.isBlank c = true) (fuel : Nat) (s : List Char) :
    value? fuel (c :: s) = none := by
  have hne (d : Char) (hd : Text.isBlank d = false) : c ≠ d := by
    rintro rfl
    exact absurd (h.symm.trans hd) (by decide)
  have hdigit : c.isDigit = false := by
    rw [← Bool.not_eq_true, Char.isDigit_iff_toNat]
    rintro ⟨hlow, hhigh⟩
    replace hlow : 48 ≤ c.toNat := hlow
    replace hhigh : c.toNat ≤ 57 := hhigh
    simp only [Text.isBlank, Bool.or_eq_true, Bool.and_eq_true, decide_eq_true_eq, beq_iff_eq] at h
    omega
  cases fuel with
  | zero => rfl
  | succ fuel =>
    rw [value?_eq_number? _ _ (hne _ rfl) (hne _ rfl) (hne _ rfl) (hne _ rfl) (hne _ rfl) (hne _ rfl)]
    have hminus : c ≠ '-' := hne _ rfl
    have hzero : c ≠ '0' := hne _ rfl
    simp [number?, wholeDigits?, takeDigits, hminus, hzero, hdigit]

/-- Space in front of a text does not matter. -/
theorem parse?_of_space_append {space : List Char} (hspace : space.all isSpace = true) (more : String) :
    parse? (String.ofList space ++ more) = parse? more := by
  have hskip : skipSpace (space ++ more.toList) = skipSpace more.toList := by
    unfold skipSpace
    rw [List.dropWhile_append_of_pos (List.all_eq_true.mp hspace)]
  unfold parse?
  rw [String.toList_append, String.toList_ofList, hskip]

/-- A text that starts with blank characters which are not all space denotes nothing. -/
theorem parse?_of_blank_append {blank : List Char} (hblank : ∀ c ∈ blank, Text.isBlank c = true)
    (hspace : blank.all isSpace = false) (more : String) :
    parse? (String.ofList blank ++ more) = none := by
  have hne : skipSpace blank ≠ [] := by
    unfold skipSpace
    rw [Ne, List.dropWhile_eq_nil_iff, ← List.all_eq_true, hspace]
    exact Bool.false_ne_true
  obtain ⟨c, t, hskip⟩ := List.exists_cons_of_ne_nil hne
  have hc : Text.isBlank c = true := by
    refine hblank c ((List.dropWhile_sublist isSpace).subset ?_)
    rw [show blank.dropWhile isSpace = c :: t from hskip]
    exact List.mem_cons_self
  unfold parse?
  rw [String.toList_append, String.toList_ofList, skipSpace_append hne, hskip, List.cons_append]
  dsimp only [Option.bind_eq_bind]
  rw [value?_of_isBlank hc]
  rfl

end LintDebt.Json
