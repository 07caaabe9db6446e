import LintDebt.Proofs.Json.Record
import LintDebt.Proofs.Json.RoundTrip
import LintDebt.Report.Format

/-!
# Reports in JSON read back

A record is written so that reading it gives the record back, whatever texts it holds and whichever of
its fields have values.  This goes from the simple types to the records, and from each record to those
that hold lists of it.

* `LintDebt.Json.Lossless`: a writer and the reader that gives back what was written.
* `LintDebt.Json.Lossless.list`, `LintDebt.Json.Lossless.of_slots`: lists and records of such values.
* `LintDebt.Diagnostic.lossless`, `LintDebt.LintResult.lossless`: the records of a report.
* `LintDebt.ReportFormat.parse?_render_json`: a report in JSON reads back as the results without their
  todos.
-/

namespace LintDebt

namespace Json

variable {α : Type} {read : Json → Option α} {write : α → Json}

/-! ## Lossless writers -/

/-- Whatever is written is sound and no `null`, and the reader gives back what was written. -/
structure Lossless (read : Json → Option α) (write : α → Json) : Prop where
  read_write : ∀ a, read (write a) = some a
  isSound_write : ∀ a, (write a).isSound = true
  write_ne_null : ∀ a, write a ≠ .null

/-- Texts read back. -/
theorem lossless_str : Lossless string? Json.str where
  read_write _ := rfl
  isSound_write _ := rfl
  write_ne_null _ h := by cases h

/-- Truth values read back. -/
theorem lossless_bool : Lossless bool? Json.bool where
  read_write _ := rfl
  isSound_write _ := rfl
  write_ne_null _ h := by cases h

/-- Numbers of 32 bits read back. -/
theorem lossless_uint32 : Lossless uint32? uint32 where
  read_write := uint32?_uint32
  isSound_write := isSound_uint32
  write_ne_null _ h := by cases h

/-- The items of an array are sound when each of them is. -/
theorem Lossless.areSoundItems_map (h : Lossless read write) (as : List α) :
    areSoundItems (as.map write) = true := by
  induction as with
  | nil => rfl
  | cons a as ih => rw [List.map_cons, areSoundItems, h.isSound_write, ih, Bool.and_self]

/-- Lists read back when their items do. -/
theorem Lossless.list (h : Lossless read write) :
    Lossless (list? read) fun as => .arr (as.map write) where
  read_write as := by
    show (as.map write).mapM read = some as
    induction as with
    | nil => rfl
    | cons a as ih =>
      rw [List.map_cons, List.mapM_cons, h.read_write, ih]
      rfl
  isSound_write := h.areSoundItems_map
  write_ne_null _ h := by cases h

/-! ## Records -/

/-- What a slot holds, if anything, is sound. -/
def SoundSlot (value : Option Json) : Prop :=
  ∀ j, value = some j → j.isSound = true

/-- A slot is sound that holds a written value. -/
theorem Lossless.slot (h : Lossless read write) (a : α) : SoundSlot (some (write a)) := by
  rintro j ⟨⟩
  exact h.isSound_write a

/-- A slot is sound that holds a written value or none. -/
theorem Lossless.slot_map (h : Lossless read write) (value : Option α) :
    SoundSlot (value.map write) := by
  intro j hj
  obtain ⟨a, -, rfl⟩ := Option.map_eq_some_iff.mp hj
  exact h.isSound_write a

/-- A field that must be given reads back from its slot. -/
theorem Lossless.required_slot (h : Lossless read write) (a : α) :
    required read (some (write a)) = some a :=
  h.read_write a

/-- A field that has a default reads back from its slot. -/
theorem Lossless.orDefault_slot (h : Lossless read write) (default a : α) :
    orDefault default read (some (write a)) = some a :=
  h.read_write a

/-- A field that may be left out reads back from its slot. -/
theorem Lossless.optional_slot_map (h : Lossless read write) (value : Option α) :
    optional read (value.map write) = some value :=
  optional_map h.read_write h.write_ne_null value

/-- Records read back that are written as sound slots of different names, if a record can be told from what
its slots hold. -/
theorem Lossless.of_slots (names : List String) (slots : α → List (String × Option Json))
    (hform : ∀ a, write a = .obj (given (slots a))) (hnames : ∀ a, (slots a).map Prod.fst = names)
    (hnodup : names.Nodup) (hsound : ∀ a, ∀ slot ∈ slots a, SoundSlot slot.2)
    (hread : ∀ a j, j.fields? (fieldNames names) = some ((slots a).map Prod.snd) → read j = some a) :
    Lossless read write where
  read_write a := by
    apply hread
    rw [hform, ← hnames a]
    exact fields?_given (slots a) (slots a) (by rwa [hnames]) (List.Subset.refl _)
  isSound_write a := by
    rw [hform, isSound, areSoundMembers_iff]
    intro member hmember
    obtain ⟨slot, hslot, hvalue⟩ := List.mem_flatMap.mp hmember
    obtain ⟨value, hmem, rfl⟩ := List.mem_map.mp hvalue
    exact hsound a slot hslot value (Option.mem_toList.mp hmem)
  write_ne_null a h := by
    rw [hform] at h
    cases h

end Json

open Json (Lossless lossless_str lossless_bool lossless_uint32)

/-! ## The parts of a result -/

/-- Severities read back. -/
theorem Severity.lossless : Lossless ofJson? toJson where
  read_write s := by
    show (some s.name).bind ofName? = some s
    rw [Option.bind_some, ofName?_name]
  isSound_write _ := rfl
  write_ne_null _ h := by cases h

/-- The slots of a diagnostic in JSON. -/
def Diagnostic.slots (d : Diagnostic) : List (String × Option Json) :=
  [("line", some (Json.uint32 d.line)), ("column", some (Json.uint32 d.column)),
    ("endLine", d.endLine.map Json.uint32), ("endColumn", d.endColumn.map Json.uint32),
    ("rule", d.rule.map Json.str), ("severity", some d.severity.toJson), ("text", some (.str d.text))]

/-- A diagnostic reads back from its fields. -/
theorem Diagnostic.ofJson?_of_fields {d : Diagnostic} {j : Json}
    {line column endLine endColumn rule severity text : Option Json}
    (h : j.fields? (Json.fieldNames ["line", "column", "endLine", "endColumn", "rule", "severity", "text"]) =
      some [line, column, endLine, endColumn, rule, severity, text])
    (hline : Json.orDefault 0 Json.uint32? line = some d.line)
    (hcolumn : Json.orDefault 0 Json.uint32? column = some d.column)
    (hendLine : Json.optional Json.uint32? endLine = some d.endLine)
    (hendColumn : Json.optional Json.uint32? endColumn = some d.endColumn)
    (hrule : Json.optional Json.string? rule = some d.rule)
    (hseverity : Json.required Severity.ofJson? severity = some d.severity)
    (htext : Json.orDefault "" Json.string? text = some d.text) : ofJson? j = some d := by
  unfold ofJson?
  rw [h]
  simp only [Option.bind_eq_bind, Option.bind_some, hline, hcolumn, hendLine, hendColumn, hrule,
    hseverity, htext]

/-- Diagnostics read back. -/
theorem Diagnostic.lossless : Lossless ofJson? toJson := by
  refine .of_slots ["line", "column", "endLine", "endColumn", "rule", "severity", "text"] slots ?_
    (fun _ => rfl) (by decide) ?_ ?_
  · rintro ⟨line, column, _ | endLine, _ | endColumn, _ | rule, severity, text⟩ <;> rfl
  · intro d
    simp only [slots, List.forall_mem_cons]
    exact ⟨lossless_uint32.slot _, lossless_uint32.slot _, lossless_uint32.slot_map _,
      lossless_uint32.slot_map _, lossless_str.slot_map _, Severity.lossless.slot _,
      lossless_str.slot _, List.forall_mem_nil _⟩
  · intro d j h
    exact ofJson?_of_fields h (lossless_uint32.orDefault_slot 0 _) (lossless_uint32.orDefault_slot 0 _)
      (lossless_uint32.optional_slot_map _) (lossless_uint32.optional_slot_map _)
      (lossless_str.optional_slot_map _) (Severity.lossless.required_slot _)
      (lossless_str.orDefault_slot "" _)

/-- The slots of a deprecation in JSON. -/
def Deprecation.slots (d : Deprecation) : List (String × Option Json) :=
  [("text", some (.str d.text)), ("reference", d.reference.map Json.str)]

/-- Deprecations read back. -/
theorem Deprecation.lossless : Lossless ofJson? toJson := by
  refine .of_slots ["text", "reference"] slots ?_ (fun _ => rfl) (by decide) ?_ ?_
  · rintro ⟨text, _ | reference⟩ <;> rfl
  · intro d
    simp only [slots, List.forall_mem_cons]
    exact ⟨lossless_str.slot _, lossless_str.slot_map _, List.forall_mem_nil _⟩
  · intro d j h
    simp only [slots, List.map_cons, List.map_nil] at h
    unfold ofJson?
    rw [h]
    simp only [Option.bind_eq_bind, Option.bind_some, lossless_str.required_slot,
      lossless_str.optional_slot_map]

/-- Invalid options read back. -/
theorem InvalidOption.lossless : Lossless ofJson? toJson := by
  refine .of_slots ["text"] (fun o => [("text", some (.str o.text))]) (fun _ => rfl) (fun _ => rfl)
    (by decide) (fun o => List.forall_mem_singleton.mpr (lossless_str.slot o.text)) ?_
  intro o j h
  simp only [List.map_cons, List.map_nil] at h
  unfold ofJson?
  rw [h]
  simp only [Option.bind_eq_bind, Option.bind_some, lossless_str.required_slot]

/-- The slots of a parse error in JSON. -/
def ParseError.slots (e : ParseError) : List (String × Option Json) :=
  [("line", some (Json.uint32 e.line)), ("column", some (Json.uint32 e.column)),
    ("stylelintType", some (.str e.kind)), ("text", some (.str e.text))]

/-- A parse error reads back from its fields. -/
theorem ParseError.ofJson?_of_fields {e : ParseError} {j : Json} {line column kind text : Option Json}
    (h : j.fields? (Json.fieldNames ["line", "column", "stylelintType", "text"]) =
      some [line, column, kind, text])
    (hline : Json.orDefault 0 Json.uint32? line = some e.line)
    (hcolumn : Json.orDefault 0 Json.uint32? column = some e.column)
    (hkind : Json.required Json.string? kind = some e.kind)
    (htext : Json.required Json.string? text = some e.text) : ofJson? j = some e := by
  unfold ofJson?
  rw [h]
  simp only [Option.bind_eq_bind, Option.bind_some, hline, hcolumn, hkind, htext]

/-- Parse errors read back. -/
theorem ParseError.lossless : Lossless ofJson? toJson := by
  refine .of_slots ["line", "column", "stylelintType", "text"] slots (fun _ => rfl) (fun _ => rfl)
    (by decide) ?_ ?_
  · intro e
    simp only [slots, List.forall_mem_cons]
    exact ⟨lossless_uint32.slot _, lossless_uint32.slot _, lossless_str.slot _, lossless_str.slot _,
      List.forall_mem_nil _⟩
  · intro e j h
    exact ofJson?_of_fields h (lossless_uint32.orDefault_slot 0 _) (lossless_uint32.orDefault_slot 0 _)
      (lossless_str.required_slot _) (lossless_str.required_slot _)

/-! ## Results -/

namespace LintResult

/-- The slots of a result in JSON: whether it is ignored is written only if it is. -/
def slots (r : LintResult) : List (String × Option Json) :=
  [("source", r.source.map Json.str),
    ("warnings", some (.arr (r.warnings.map Diagnostic.toJson))),
    ("deprecations", some (.arr (r.deprecations.map Deprecation.toJson))),
    ("invalidOptionWarnings", some (.arr (r.invalidOptions.map InvalidOption.toJson))),
    ("parseErrors", some (.arr (r.parseErrors.map ParseError.toJson))),
    ("errored", some (.bool r.errored)),
    ("ignored", if r.ignored then some (.bool true) else none)]

/-- Whether a result is ignored reads back, written or not. -/
theorem orDefault_ignored (ignored : Bool) :
    Json.orDefault false Json.bool? (if ignored then some (.bool true) else none) = some ignored := by
  cases ignored <;> rfl

/-- Results read back. -/
theorem lossless : Lossless ofJson? toJson := by
  refine .of_slots ["source", "warnings", "deprecations", "invalidOptionWarnings", "parseErrors",
    "errored", "ignored"] slots ?_ (fun _ => rfl) (by decide) ?_ ?_
  · rintro ⟨_ | source, warnings, deprecations, invalidOptions, parseErrors, errored, _ | _⟩ <;> rfl
  · intro r
    simp only [slots, List.forall_mem_cons]
    refine ⟨lossless_str.slot_map _, Diagnostic.lossless.list.slot _, Deprecation.lossless.list.slot _,
      InvalidOption.lossless.list.slot _, ParseError.lossless.list.slot _, lossless_bool.slot _, ?_,
      List.forall_mem_nil _⟩
    cases r.ignored with
    | false => rintro _ ⟨⟩
    | true => exact lossless_bool.slot true
  · intro r j h
    simp only [slots, List.map_cons, List.map_nil] at h
    unfold ofJson?
    rw [h]
    simp only [Option.bind_eq_bind, Option.bind_some, lossless_str.optional_slot_map,
      Diagnostic.lossless.list.orDefault_slot, Deprecation.lossless.list.orDefault_slot,
      InvalidOption.lossless.list.orDefault_slot, ParseError.lossless.list.orDefault_slot,
      lossless_bool.orDefault_slot, orDefault_ignored]

/-- A list of results in JSON reads back from its text. -/
theorem parse?_listToJson (results : List LintResult) :
    (Json.parse? (listToJson results).compact).bind listOfJson? = some results := by
  unfold listToJson
  rw [Json.parse?_compact (lossless.list.isSound_write results), Option.bind_some]
  exact lossless.list.read_write results

end LintResult

/-! ## The report -/

namespace ReportFormat

/-- Without its todos a result has live errors when it had some before. -/
theorem hasLiveErrors_withoutTodos (r : LintResult) :
    (withoutTodos r).hasLiveErrors = r.hasLiveErrors := by
  unfold withoutTodos LintResult.hasLiveErrors
  rw [List.any_filter]
  congr 1
  funext d
  cases h : d.severity <;> simp [Diagnostic.isTodo, Diagnostic.isError, h]

/-- The text of a report in JSON reads back as the results without their todos: every other diagnostic is
there in its place, and everything else in a result is as it was.  So a result has live errors afterwards
when it had some before. -/
theorem parse?_render_json (cwd : String) (results : List LintResult) :
    (Json.parse? (json.render cwd results)).bind LintResult.listOfJson? =
        some (results.map fun r => { r with warnings := r.warnings.filter (·.severity != .todo) }) ∧
      (results.map fun r => { r with warnings := r.warnings.filter (·.severity != .todo) }).map
        LintResult.hasLiveErrors = results.map LintResult.hasLiveErrors := by
  constructor
  · exact LintResult.parse?_listToJson (results.map withoutTodos)
  · rw [List.map_map]
    exact List.map_congr_left fun r _ => hasLiveErrors_withoutTodos r

end ReportFormat

end LintDebt
