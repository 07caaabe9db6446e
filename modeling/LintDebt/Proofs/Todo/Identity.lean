import LintDebt.Proofs.Candidates
import LintDebt.Proofs.Text.Bytes
import LintDebt.Proofs.Text.Digits
import LintDebt.Proofs.Text.Lines

/-!
# What a fingerprint is taken of

The bytes that the key of a todo is computed from tell engine, file, rule and span apart: the four numbers can be
read off their end, since digits hold no zero character, and what is left are the three names, each closed.
Nothing else of a todo goes into them.

* `LintDebt.Todo.label`: the three names of a todo, with zero characters between them.
* `LintDebt.Todo.identityBytes_eq`: the bytes are those of one text.
* `LintDebt.Todo.split_identityChars`: the label and the four numbers are taken off this text again.
* `LintDebt.Todo.identityBytes_eq_iff`: when two todos are spelled out alike.
-/

namespace LintDebt.Todo

variable {t u : Todo}

/-! ## The text of an identity -/

/-- Engine, file path and rule of a todo, with a zero character between them. -/
def label (t : Todo) : String :=
  t.engine ++ "\x00" ++ t.filePath ++ "\x00" ++ t.ruleId

/-- The four numbers of a span, in digits. -/
def digits (s : Span) : List (List Char) :=
  [s.start.line, s.start.column, s.stop.line, s.stop.column].map fun n => Text.decimalDigits n.toNat

/-- The identity of a todo as a text: its label and four numbers, each closed by a zero character. -/
def identityChars (t : Todo) : List Char :=
  t.label.toList ++ '\x00' :: (digits t.span).flatMap (· ++ ['\x00'])

/-- A closed text is spelled with a zero character at its end. -/
theorem closed_eq (s : String) : closed s = (s ++ "\x00").toUTF8.toList := by
  have hzero : "\x00".toUTF8.toList = [0] := by
    rw [Text.toList_eq_data]
    rfl
  rw [Text.toList_toUTF8_append, hzero]
  rfl

/-- The identity of a todo is spelled by the bytes of one text. -/
theorem identityBytes_eq (t : Todo) :
    t.identityBytes = (String.ofList t.identityChars).toUTF8.toList := by
  have hnumber (n : UInt32) : toString n.toNat = String.ofList (Text.decimalDigits n.toNat) := by
    rw [Nat.toString_eq_repr, ← String.ofList_toList (s := n.toNat.repr), Nat.toList_repr]
    rfl
  have htext : String.ofList t.identityChars =
      t.engine ++ "\x00" ++ (t.filePath ++ "\x00") ++ (t.ruleId ++ "\x00") ++
        (toString t.span.start.line.toNat ++ "\x00" ++
          (toString t.span.start.column.toNat ++ "\x00" ++
            (toString t.span.stop.line.toNat ++ "\x00" ++
              (toString t.span.stop.column.toNat ++ "\x00")))) := by
    apply String.toList_injective
    simp [identityChars, label, digits, hnumber]
  rw [htext]
  simp only [identityBytes, closed_eq, List.flatMap_cons, List.flatMap_nil, List.append_nil,
    Text.toList_toUTF8_append]

/-! ## Reading an identity -/

/-- Pieces without zero characters, each closed by one, are taken apart again. -/
theorem split_flatMap_closed {pieces : List (List Char)} (h : ∀ piece ∈ pieces, '\x00' ∉ piece) :
    Text.split '\x00' (pieces.flatMap (· ++ ['\x00'])) = pieces ++ [[]] := by
  induction pieces with
  | nil => rfl
  | cons piece rest ih =>
    have hrest := ih fun p hp => h p (List.mem_cons_of_mem piece hp)
    rw [List.flatMap_cons, List.append_assoc, List.singleton_append, Text.split_append_cons,
      Text.split_of_not_mem (h piece List.mem_cons_self), hrest, List.singleton_append, List.cons_append]

/-- Digits are no zero characters. -/
theorem not_mem_digits (s : Span) : ∀ piece ∈ digits s, '\x00' ∉ piece := by
  intro piece hpiece hzero
  obtain ⟨n, -, rfl⟩ := List.mem_map.mp hpiece
  have hdigit := Text.isDigit_of_mem_decimalDigits hzero
  revert hdigit
  decide

/-- Behind the pieces of its label the text of an identity has the four numbers. -/
theorem split_identityChars (t : Todo) :
    Text.split '\x00' t.identityChars = Text.split '\x00' t.label.toList ++ (digits t.span ++ [[]]) := by
  unfold identityChars
  rw [Text.split_append_cons, split_flatMap_closed (not_mem_digits t.span)]

/-- A number is known by its digits. -/
theorem decimalDigits_inj {m n : UInt32} (h : Text.decimalDigits m.toNat = Text.decimalDigits n.toNat) :
    m = n := by
  apply UInt32.toNat_inj.mp
  rw [← Text.digitsValue_decimalDigits m.toNat, h, Text.digitsValue_decimalDigits]

/-- A span is known by the digits of its numbers. -/
theorem digits_inj {s s' : Span} (h : digits s = digits s') : s = s' := by
  obtain ⟨⟨startLine, startColumn⟩, ⟨stopLine, stopColumn⟩⟩ := s
  obtain ⟨⟨startLine', startColumn'⟩, ⟨stopLine', stopColumn'⟩⟩ := s'
  simp only [digits, List.map_cons, List.map_nil, List.cons.injEq, and_true] at h
  obtain ⟨h₁, h₂, h₃, h₄⟩ := h
  rw [decimalDigits_inj h₁, decimalDigits_inj h₂, decimalDigits_inj h₃, decimalDigits_inj h₄]

/-- Todos are spelled out alike exactly when they have one span and one label. -/
theorem identityBytes_eq_iff_label (t u : Todo) :
    t.identityBytes = u.identityBytes ↔ t.span = u.span ∧ t.label = u.label := by
  rw [identityBytes_eq, identityBytes_eq, Text.toList_toUTF8_inj, String.ofList_inj]
  constructor
  · intro h
    have hsplit : Text.split '\x00' t.label.toList ++ (digits t.span ++ [[]]) =
        Text.split '\x00' u.label.toList ++ (digits u.span ++ [[]]) := by
      rw [← split_identityChars, h, split_identityChars]
    obtain ⟨-, hnumbers⟩ := List.append_inj' hsplit rfl
    have hspan := digits_inj (List.append_cancel_right hnumbers)
    refine ⟨hspan, String.toList_injective ?_⟩
    unfold identityChars at h
    rw [hspan] at h
    exact List.append_cancel_right h
  · rintro ⟨hspan, hlabel⟩
    unfold identityChars
    rw [hspan, hlabel]

/-! ## Names without zero characters -/

/-- None of the three names of a todo holds a zero character. -/
structure IsZeroFree (t : Todo) : Prop where
  engine : '\x00' ∉ t.engine.toList
  filePath : '\x00' ∉ t.filePath.toList
  ruleId : '\x00' ∉ t.ruleId.toList

/-- The three names are read off a label whose names hold no zero characters. -/
theorem IsZeroFree.split_label (h : t.IsZeroFree) :
    Text.split '\x00' t.label.toList = [t.engine.toList, t.filePath.toList, t.ruleId.toList] := by
  have hlabel : t.label.toList =
      t.engine.toList ++ '\x00' :: (t.filePath.toList ++ '\x00' :: t.ruleId.toList) := by
    simp [label]
  rw [hlabel, Text.split_append_cons, Text.split_append_cons, Text.split_of_not_mem h.engine,
    Text.split_of_not_mem h.filePath, Text.split_of_not_mem h.ruleId]
  rfl

/-- Todos whose names hold no zero characters have one label exactly when they have the same names. -/
theorem label_eq_iff (ht : t.IsZeroFree) (hu : u.IsZeroFree) :
    t.label = u.label ↔ t.engine = u.engine ∧ t.filePath = u.filePath ∧ t.ruleId = u.ruleId := by
  constructor
  · intro h
    have hsplit : [t.engine.toList, t.filePath.toList, t.ruleId.toList] =
        [u.engine.toList, u.filePath.toList, u.ruleId.toList] := by
      rw [← ht.split_label, h, hu.split_label]
    simpa [String.toList_inj] using hsplit
  · rintro ⟨hengine, hpath, hrule⟩
    unfold label
    rw [hengine, hpath, hrule]

/-- Two todos are spelled out alike exactly when their four numbers are equal and their names are equal as a text,
with zero characters between them; and when no name holds such a character, exactly when they have one
identity, whatever else they hold. -/
theorem identityBytes_eq_iff (t u : Todo) :
    (t.identityBytes = u.identityBytes ↔ t.span = u.span ∧
      t.engine ++ "\x00" ++ t.filePath ++ "\x00" ++ t.ruleId =
        u.engine ++ "\x00" ++ u.filePath ++ "\x00" ++ u.ruleId) ∧
    (t.IsZeroFree → u.IsZeroFree → (t.identityBytes = u.identityBytes ↔ t.SameIdentity u)) := by
  refine ⟨identityBytes_eq_iff_label t u, fun ht hu => ?_⟩
  rw [identityBytes_eq_iff_label, label_eq_iff ht hu]
  constructor
  · rintro ⟨hspan, hengine, hpath, hrule⟩
    exact ⟨hengine, hpath, hrule, hspan⟩
  · rintro ⟨hengine, hpath, hrule, hspan⟩
    exact ⟨hspan, hengine, hpath, hrule⟩

/-- A todo whose path holds what might be taken for the start of a rule. -/
def exampleColon : Todo where
  engine := "stylelint"
  filePath := "a:b"
  ruleId := "c"
  span := ⟨⟨1, 1⟩, ⟨1, 12⟩⟩

/-- A todo with the same characters in its names, and elsewhere. -/
def exampleMoved : Todo :=
  { exampleColon with filePath := "a", ruleId := "b:c" }

/-- A todo is spelled out as one with another snippet and origin is, and not as one whose names are divided in
another way. -/
theorem identityBytes_eq_iff_of_moved :
    exampleColon.IsZeroFree ∧ exampleMoved.IsZeroFree ∧
      exampleColon.identityBytes ≠ exampleMoved.identityBytes ∧
      exampleColon.identityBytes = { exampleColon with snippet := "x", origin := some 3 }.identityBytes := by
  have hcolon : exampleColon.IsZeroFree := ⟨by decide, by decide, by decide⟩
  have hmoved : exampleMoved.IsZeroFree := ⟨by decide, by decide, by decide⟩
  have hother : { exampleColon with snippet := "x", origin := some 3 }.IsZeroFree :=
    ⟨by decide, by decide, by decide⟩
  refine ⟨hcolon, hmoved, ?_, ?_⟩
  · intro h
    have hsame := ((identityBytes_eq_iff exampleColon exampleMoved).2 hcolon hmoved).mp h
    revert hsame
    decide
  · exact ((identityBytes_eq_iff exampleColon _).2 hcolon hother).mpr (by decide)

end LintDebt.Todo
