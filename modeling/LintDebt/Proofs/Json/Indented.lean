import LintDebt.Proofs.Json.RoundTrip

/-!
# Indented JSON reads back

A value over several lines reads back as the same value on one line does: what stands between its parts is
space, and space is skipped.

* `LintDebt.Json.skipSpace_newline`: a line feed and its indentation are skipped.
* `LintDebt.Json.value?_renderAt`: a value over several lines reads back in front of a text that makes no
  number longer.
* `LintDebt.Json.parse?_pretty`: a whole text over several lines reads back, with a line feed behind it.
* `LintDebt.Json.parse?_wrapped`: and so does an object with such a text as its member.
-/

namespace LintDebt.Json

/-! ## Space between the parts -/

/-- A line feed and the indentation of a level are skipped. -/
theorem skipSpace_newline (level : Nat) (s : List Char) : skipSpace (newline level ++ s) = skipSpace s := by
  have hspace : ∀ c ∈ newline level, isSpace c = true := by
    intro c hc
    rcases List.mem_cons.mp hc with rfl | hc
    · decide
    · rw [List.eq_of_mem_replicate hc]
      decide
  exact List.dropWhile_append_of_pos hspace

/-- A space is skipped. -/
theorem skipSpace_cons_of_isSpace {c : Char} (h : isSpace c = true) (s : List Char) :
    skipSpace (c :: s) = skipSpace s :=
  List.dropWhile_cons_of_pos h

/-- A line feed makes no number longer. -/
theorem endsNumber_newline (level : Nat) (s : List Char) : EndsNumber (newline level ++ s) := by
  rw [newline, List.cons_append]
  exact endsNumber_cons.mpr (by decide)

/-- A value that is neither a list nor an object stands on one line. -/
theorem renderAt_eq_render (level : Nat) {j : Json} (ha : ∀ items, j ≠ .arr items)
    (ho : ∀ members, j ≠ .obj members) : renderAt level j = render j := by
  cases j with
  | arr items => exact absurd rfl (ha items)
  | obj members => exact absurd rfl (ho members)
  | null | bool | int | decimal | str | illegible => rfl

/-- A value over several lines starts with a character that is no space and closes nothing. -/
theorem exists_renderAt_eq_cons (level : Nat) (j : Json) :
    ∃ c cs, renderAt level j = c :: cs ∧ isSpace c = false ∧ c ≠ ']' := by
  cases j with
  | arr items => cases items <;> exact ⟨'[', _, rfl, by decide⟩
  | obj members => cases members <;> exact ⟨'\x7b', _, rfl, by decide⟩
  | null | bool | int | decimal | str | illegible =>
    rw [renderAt_eq_render level (fun _ h => by cases h) fun _ h => by cases h]
    exact exists_render_eq_cons _

/-- Nothing is skipped before a value over several lines. -/
theorem skipSpace_renderAt (level : Nat) (j : Json) (rest : List Char) :
    skipSpace (renderAt level j ++ rest) = renderAt level j ++ rest := by
  obtain ⟨c, cs, hcs, hc, -⟩ := exists_renderAt_eq_cons level j
  rw [hcs, List.cons_append, skipSpace_cons hc]

/-- Two items on lines of their own have a comma between them. -/
theorem renderItemsAt_cons_cons (level : Nat) (item next : Json) (items : List Json) :
    renderItemsAt level (item :: next :: items) =
      newline level ++ renderAt level item ++ ',' :: renderItemsAt level (next :: items) := by
  rw [renderItemsAt.eq_def]

/-- Two members on lines of their own have a comma between them. -/
theorem renderMembersAt_cons_cons (level : Nat) (member next : String × Json)
    (members : List (String × Json)) :
    renderMembersAt level (member :: next :: members) = newline level ++ quote member.1 ++
      ':' :: ' ' :: (renderAt level member.2 ++ ',' :: renderMembersAt level (next :: members)) := by
  rw [renderMembersAt.eq_def]

/-- Behind the space before them, items on lines of their own start with the first item. -/
theorem exists_skipSpace_renderItemsAt (level : Nat) (item : Json) (items : List Json)
    (rest : List Char) : ∃ c cs, skipSpace (renderItemsAt level (item :: items) ++ rest) = c :: cs ∧
      c ≠ ']' := by
  obtain ⟨c, cs, hcs, hspace, hclose⟩ := exists_renderAt_eq_cons level item
  cases items with
  | nil =>
    refine ⟨c, cs ++ rest, ?_, hclose⟩
    rw [renderItemsAt, List.append_assoc, skipSpace_newline, hcs, List.cons_append, skipSpace_cons hspace]
  | cons next items =>
    refine ⟨c, cs ++ (',' :: renderItemsAt level (next :: items) ++ rest), ?_, hclose⟩
    rw [renderItemsAt_cons_cons, List.append_assoc, List.append_assoc, skipSpace_newline, hcs,
      List.cons_append, skipSpace_cons hspace]

/-- Behind the space before them, members on lines of their own start with a quote. -/
theorem exists_skipSpace_renderMembersAt (level : Nat) (member : String × Json)
    (members : List (String × Json)) (rest : List Char) :
    ∃ cs, skipSpace (renderMembersAt level (member :: members) ++ rest) = '"' :: cs := by
  obtain ⟨name, value⟩ := member
  have hquote (s : List Char) : skipSpace (newline level ++ quote name ++ s) = quote name ++ s := by
    rw [List.append_assoc, skipSpace_newline, quote, List.cons_append, skipSpace_cons rfl]
  cases members with
  | nil => exact ⟨_, by rw [renderMembersAt, List.append_assoc, hquote, quote, List.cons_append]⟩
  | cons next members =>
    exact ⟨_, by rw [renderMembersAt_cons_cons, List.append_assoc, hquote, quote, List.cons_append]⟩

/-! ## Values -/

mutual

/-- A sound value over several lines reads back, whatever stands behind it that makes no number longer. -/
theorem value?_renderAt : (level : Nat) → (j : Json) → j.isSound = true →
    ∀ (fuel : Nat) (rest : List Char), 2 * (renderAt level j).length + 1 ≤ fuel → EndsNumber rest →
      value? fuel (renderAt level j ++ rest) = some (j, rest)
  | _, .null, hs, fuel + 1, rest, hf, hr => value?_render .null hs (fuel + 1) rest hf hr
  | _, .bool b, hs, fuel + 1, rest, hf, hr => value?_render (.bool b) hs (fuel + 1) rest hf hr
  | _, .int i, hs, fuel + 1, rest, hf, hr => value?_render (.int i) hs (fuel + 1) rest hf hr
  | _, .decimal negative coefficient exponent, hs, fuel + 1, rest, hf, hr =>
    value?_render (.decimal negative coefficient exponent) hs (fuel + 1) rest hf hr
  | _, .str s, hs, fuel + 1, rest, hf, hr => value?_render (.str s) hs (fuel + 1) rest hf hr
  | _, .arr [], _, fuel + 1, rest, _, _ => by
    simp [renderAt, value?, skipSpace, isSpace]
  | level, .arr (item :: items), hs, fuel + 1, rest, hf, _ => by
    have hread := items?_renderItemsAt (level + 1) level item items hs fuel rest (by
      simp only [renderAt, List.length_cons, List.length_append] at hf
      omega)
    obtain ⟨c, cs, hcs, hclose⟩ := exists_skipSpace_renderItemsAt (level + 1) item items
      (newline level ++ ']' :: rest)
    simp only [renderAt, List.cons_append, List.append_assoc, List.nil_append, value?]
    rw [hcs] at hread ⊢
    simp [hclose, hread]
  | _, .obj [], _, fuel + 1, rest, _, _ => by
    simp [renderAt, value?, skipSpace, isSpace]
  | level, .obj (member :: members), hs, fuel + 1, rest, hf, _ => by
    have hread := members?_renderMembersAt (level + 1) level member members hs fuel rest (by
      simp only [renderAt, List.length_cons, List.length_append] at hf
      omega)
    obtain ⟨cs, hcs⟩ := exists_skipSpace_renderMembersAt (level + 1) member members
      (newline level ++ '\x7d' :: rest)
    simp only [renderAt, List.cons_append, List.append_assoc, List.nil_append, value?]
    rw [hcs] at hread ⊢
    show Option.map _ (members? fuel ('"' :: cs)) = _
    rw [hread, Option.map_some, objOfMembers_map_some]
  | _, .illegible, hs, _, _, _, _ => by simp [isSound] at hs
termination_by structural _ _ _ fuel => fuel

/-- Items on lines of their own read back, up to the closing bracket on the next line. -/
theorem items?_renderItemsAt : (level outer : Nat) → (item : Json) → (items : List Json) →
    areSoundItems (item :: items) = true → ∀ (fuel : Nat) (rest : List Char),
      2 * (renderItemsAt level (item :: items)).length + 2 ≤ fuel →
        items? fuel (skipSpace (renderItemsAt level (item :: items) ++ (newline outer ++ ']' :: rest))) =
          some (item :: items, rest)
  | level, outer, item, [], hs, fuel + 1, rest, hf => by
    simp only [renderItemsAt, List.length_append] at hf
    have hread := value?_renderAt level item (by simpa [areSoundItems] using hs) fuel
      (newline outer ++ ']' :: rest) (by omega) (endsNumber_newline outer _)
    rw [renderItemsAt, List.append_assoc, skipSpace_newline, skipSpace_renderAt, items?, hread]
    simp [skipSpace_newline, skipSpace_cons (c := ']') rfl]
  | level, outer, item, next :: items, hs, fuel + 1, rest, hf => by
    rw [areSoundItems, Bool.and_eq_true] at hs
    rw [renderItemsAt_cons_cons] at hf ⊢
    simp only [List.length_append, List.length_cons] at hf
    have hread := value?_renderAt level item hs.1 fuel
      (',' :: (renderItemsAt level (next :: items) ++ (newline outer ++ ']' :: rest))) (by omega) (by simp)
    have hrest := items?_renderItemsAt level outer next items hs.2 fuel rest (by omega)
    rw [List.append_assoc, List.append_assoc, skipSpace_newline, List.cons_append, skipSpace_renderAt,
      items?, hread]
    simp [skipSpace_cons (c := ',') rfl, hrest]
termination_by structural _ _ _ _ _ fuel => fuel

/-- Members on lines of their own read back, up to the closing brace on the next line. -/
theorem members?_renderMembersAt : (level outer : Nat) → (member : String × Json) →
    (members : List (String × Json)) → areSoundMembers (member :: members) = true →
      ∀ (fuel : Nat) (rest : List Char), 2 * (renderMembersAt level (member :: members)).length + 2 ≤ fuel →
        members? fuel
            (skipSpace (renderMembersAt level (member :: members) ++ (newline outer ++ '\x7d' :: rest))) =
          some ((member :: members).map fun m => (some m.1, m.2), rest)
  | level, outer, (name, value), [], hs, fuel + 1, rest, hf => by
    simp only [renderMembersAt, quote, List.length_append, List.length_cons] at hf
    have hread := value?_renderAt level value (by simpa [areSoundMembers] using hs) fuel
      (newline outer ++ '\x7d' :: rest) (by omega) (endsNumber_newline outer _)
    simp only [renderMembersAt, quote, List.cons_append, List.append_assoc, List.nil_append,
      skipSpace_newline, skipSpace_cons (c := '"') rfl, members?]
    rw [scanString_escape]
    simp [skipSpace_cons (c := ':') rfl, skipSpace_cons_of_isSpace (c := ' ') rfl, skipSpace_renderAt,
      skipSpace_newline, hread, skipSpace_cons (c := '\x7d') rfl, pairUp_map_char]
  | level, outer, (name, value), next :: members, hs, fuel + 1, rest, hf => by
    rw [areSoundMembers, Bool.and_eq_true] at hs
    rw [renderMembersAt_cons_cons] at hf ⊢
    simp only [quote, List.length_append, List.length_cons] at hf
    have hread := value?_renderAt level value hs.1 fuel
      (',' :: (renderMembersAt level (next :: members) ++ (newline outer ++ '\x7d' :: rest))) (by omega)
      (by simp)
    have hrest := members?_renderMembersAt level outer next members hs.2 fuel rest (by omega)
    simp only [quote, List.cons_append, List.append_assoc, List.nil_append, skipSpace_newline,
      skipSpace_cons (c := '"') rfl, members?]
    rw [scanString_escape]
    simp [skipSpace_cons (c := ':') rfl, skipSpace_cons_of_isSpace (c := ' ') rfl, skipSpace_renderAt,
      hread, skipSpace_cons (c := ',') rfl, hrest, pairUp_map_char]
termination_by structural _ _ _ _ _ fuel => fuel

end

/-! ## Whole texts -/

/-- A sound value over several lines reads back, with a line feed behind it. -/
theorem parse?_pretty {j : Json} (hs : j.isSound = true) : parse? (j.pretty ++ "\n") = some j := by
  have hread := value?_renderAt 0 j hs (enoughFuel (renderAt 0 j ++ ['\n'])) ['\n']
    (by simp only [enoughFuel, List.length_append]; omega) (endsNumber_newline 0 [])
  have htext : (j.pretty ++ "\n").toList = renderAt 0 j ++ ['\n'] := by
    rw [String.toList_append, pretty, String.toList_ofList]
    rfl
  unfold parse?
  rw [htext]
  dsimp only
  rw [skipSpace_renderAt, hread]
  rfl

/-- An object whose only member is a text over several lines, with a line feed behind it. -/
def wrapped (name text : String) : String :=
  String.ofList ('\x7b' :: (quote name ++ ':' :: (text.toList ++ ['\x7d'])))

/-- A sound value over several lines reads back as the member of an object. -/
theorem parse?_wrapped (name : String) {j : Json} (hs : j.isSound = true) :
    parse? (wrapped name (j.pretty ++ "\n")) = some (.obj [(name, j)]) := by
  have htext : (wrapped name (j.pretty ++ "\n")).toList =
      '\x7b' :: '"' :: (escape name.toList ++ '"' :: ':' :: (renderAt 0 j ++ ['\n', '\x7d'])) := by
    simp [wrapped, pretty, quote]
  have hread (fuel : Nat) (hf : 2 * (renderAt 0 j).length + 1 ≤ fuel) :=
    value?_renderAt 0 j hs fuel ['\n', '\x7d'] hf (endsNumber_newline 0 _)
  have hclose : skipSpace ['\n', '\x7d'] = ['\x7d'] := rfl
  have hmember (fuel : Nat) (hf : 2 * (renderAt 0 j).length + 1 ≤ fuel) :
      members? (fuel + 1)
        ('"' :: (escape name.toList ++ '"' :: ':' :: (renderAt 0 j ++ ['\n', '\x7d']))) =
          some ([(name, j)].map fun m => (some m.1, m.2), []) := by
    rw [members?, scanString_escape]
    simp [skipSpace_cons (c := ':') rfl, skipSpace_renderAt, hread fuel hf, pairUp_map_char, hclose]
  have hvalue (fuel : Nat) (hf : 2 * (renderAt 0 j).length + 1 ≤ fuel) :
      value? (fuel + 2)
        ('\x7b' :: '"' :: (escape name.toList ++ '"' :: ':' :: (renderAt 0 j ++ ['\n', '\x7d']))) =
          some (.obj [(name, j)], []) := by
    rw [value?]
    simp only [skipSpace_cons (c := '"') rfl]
    show Option.map _ (members? (fuel + 1) ('"' :: (escape name.toList ++ _))) = _
    rw [hmember fuel hf, Option.map_some, objOfMembers_map_some]
  unfold parse?
  rw [htext]
  dsimp only
  rw [skipSpace_cons (by decide), enoughFuel, hvalue]
  · rfl
  · simp only [List.length_cons, List.length_append]
    omega

end LintDebt.Json
