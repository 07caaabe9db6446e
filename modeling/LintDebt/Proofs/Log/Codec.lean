import LintDebt.Log
import LintDebt.Proofs.Date.RoundTrip
import LintDebt.Proofs.Json.Record
import LintDebt.Proofs.Json.RoundTrip
import LintDebt.Proofs.Text.Lines

/-!
# The log reads back

* `LintDebt.Position.ofJson?_toJson`, `LintDebt.Span.ofJson?_toJson`: places in a file read back.
* `LintDebt.Todo.ofJson?_cons_members`: a todo reads back without the fields that are never stored.
* `LintDebt.LogEntry.parse?_compact`: a line of the log reads back.
* `LintDebt.LogEntry.decode_append_encode`: what is written behind whole lines reads back behind what
  they hold.
* `LintDebt.LogEntry.live_map_stored`: the live todos are the same after reading back.
-/

namespace LintDebt

open Json (optional required orDefault string? given fields?_given uint32?_uint32
  always_append_given whenSome_append_given)

/-- A position reads back from its two numbers. -/
theorem Position.ofJson?_of_fields {p : Position} {line column j : Json}
    (h : j.fields? (Json.fieldNames ["line", "column"]) = some [some line, some column])
    (hline : Json.uint32? line = some p.line) (hcolumn : Json.uint32? column = some p.column) :
    ofJson? j = some p := by
  unfold ofJson?
  rw [h]
  simp only [Option.bind_eq_bind, Option.bind_some, Json.required, hline, hcolumn]

/-- A position reads back. -/
theorem Position.ofJson?_toJson (p : Position) : ofJson? p.toJson = some p := by
  refine ofJson?_of_fields ?_ (uint32?_uint32 p.line) (uint32?_uint32 p.column)
  let slots := [("line", some (Json.uint32 p.line)), ("column", some (Json.uint32 p.column))]
  exact fields?_given slots slots (by simp [slots]) (List.Subset.refl slots)

/-- A span reads back from its two ends. -/
theorem Span.ofJson?_of_fields {s : Span} {start stop j : Json}
    (h : j.fields? (Json.fieldNames ["start", "end"]) = some [some start, some stop])
    (hstart : Position.ofJson? start = some s.start) (hstop : Position.ofJson? stop = some s.stop) :
    ofJson? j = some s := by
  unfold ofJson?
  rw [h]
  simp only [Option.bind_eq_bind, Option.bind_some, Json.required, hstart, hstop]

/-- A span reads back. -/
theorem Span.ofJson?_toJson (s : Span) : ofJson? s.toJson = some s := by
  refine ofJson?_of_fields ?_ (Position.ofJson?_toJson s.start) (Position.ofJson?_toJson s.stop)
  let slots := [("start", some s.start.toJson), ("end", some s.stop.toJson)]
  exact fields?_given slots slots (by simp [slots]) (List.Subset.refl slots)

namespace Todo

/-- A date reads back. -/
theorem dateOfJson?_dateToJson (d : Date) : dateOfJson? (dateToJson d) = some d := by
  unfold dateOfJson? dateToJson
  rw [Json.string?, Option.bind_some, Date.parse?_render]

/-- The slots of a todo in JSON. -/
def slots (t : Todo) : List (String × Option Json) :=
  [("engine", some (.str t.engine)), ("filePath", some (.str t.filePath)),
    ("ruleId", some (.str t.ruleId)), ("range", some t.span.toJson),
    ("source", some (.str t.snippet)), ("createdDate", t.createdDate.map dateToJson),
    ("warnDate", t.warnDate.map dateToJson), ("errorDate", t.errorDate.map dateToJson)]

/-- The members of a todo are those that its slots give. -/
theorem members_eq_given (t : Todo) : t.members = given t.slots := by
  unfold members slots
  have hlast := whenSome_append_given "errorDate" dateToJson t.errorDate []
  simp only [List.append_assoc]
  rw [show given [] = [] from rfl, List.append_nil] at hlast
  rw [hlast, whenSome_append_given, whenSome_append_given, always_append_given,
    always_append_given, always_append_given, always_append_given, always_append_given]

/-- A todo reads back from its fields, without those that are never stored. -/
theorem ofJson?_of_fields {t : Todo} {span j : Json} {created warn error : Option Json}
    (h : j.fields? fieldNames = some [some (.str t.engine), some (.str t.filePath),
      some (.str t.ruleId), some span, some (.str t.snippet), created, warn, error])
    (hspan : Span.ofJson? span = some t.span)
    (hcreated : optional dateOfJson? created = some t.createdDate)
    (hwarn : optional dateOfJson? warn = some t.warnDate)
    (herror : optional dateOfJson? error = some t.errorDate) :
    ofJson? j = some t.stored := by
  unfold ofJson?
  rw [h]
  simp only [Option.bind_eq_bind, Option.bind_some, required, orDefault, string?, hspan, hcreated,
    hwarn, herror]
  rfl

/-- A todo reads back from an object that has its members, without the fields that are never
stored; a further member does not matter. -/
theorem ofJson?_cons_members (t : Todo) {name : String} (hname : name ∉ t.slots.map Prod.fst)
    (value : Json) : ofJson? (.obj ((name, value) :: t.members)) = some t.stored := by
  have hdate : ∀ o : Option Date, optional dateOfJson? (o.map dateToJson) = some o :=
    Json.optional_map dateOfJson?_dateToJson (fun d h => by cases h)
  refine ofJson?_of_fields ?_ (Span.ofJson?_toJson t.span) (hdate t.createdDate)
    (hdate t.warnDate) (hdate t.errorDate)
  have hnames : (t.slots.map Prod.fst).Nodup := by simp [slots]
  have hform : (name, value) :: t.members = given ((name, some value) :: t.slots) := by
    rw [members_eq_given]
    rfl
  rw [hform]
  exact fields?_given ((name, some value) :: t.slots) t.slots
    (List.nodup_cons.mpr ⟨hname, hnames⟩) (List.subset_cons_self _ _)

end Todo

/-- The text of a position is sound, and does not nest. -/
theorem Position.isSound_toJson (p : Position) : p.toJson.isSound = true ∧ p.toJson.depth = 1 := by
  constructor
  · exact (Json.areSoundMembers_iff _).mpr (by simp [Json.always, Json.isSound_uint32])
  · rfl

/-- The text of a span is sound, and nests twice. -/
theorem Span.isSound_toJson (s : Span) : s.toJson.isSound = true ∧ s.toJson.depth = 2 := by
  constructor
  · exact (Json.areSoundMembers_iff _).mpr (by
      simp [Json.always, s.start.isSound_toJson.1, s.stop.isSound_toJson.1])
  · rfl

/-- Whatever a slot of a todo holds is sound, and nests at most twice. -/
theorem Todo.isSound_of_mem_slots {t : Todo} {name : String} {j : Json}
    (h : (name, some j) ∈ t.slots) : j.isSound = true ∧ j.depth ≤ 2 := by
  have hdate : ∀ o : Option Date, some j = o.map Todo.dateToJson → j.isSound = true ∧ j.depth ≤ 2 := by
    intro o ho
    obtain ⟨d, -, rfl⟩ := Option.map_eq_some_iff.mp ho.symm
    exact ⟨rfl, Nat.zero_le _⟩
  simp only [Todo.slots, List.mem_cons, Prod.mk.injEq, List.not_mem_nil, or_false,
    Option.some.injEq] at h
  rcases h with ⟨-, rfl⟩ | ⟨-, rfl⟩ | ⟨-, rfl⟩ | ⟨-, rfl⟩ | ⟨-, rfl⟩ | ⟨-, h⟩ | ⟨-, h⟩ | ⟨-, h⟩
  · exact ⟨rfl, Nat.zero_le _⟩
  · exact ⟨rfl, Nat.zero_le _⟩
  · exact ⟨rfl, Nat.zero_le _⟩
  · exact ⟨t.span.isSound_toJson.1, Nat.le_of_eq t.span.isSound_toJson.2⟩
  · exact ⟨rfl, Nat.zero_le _⟩
  · exact hdate _ h
  · exact hdate _ h
  · exact hdate _ h

namespace LogEntry

open LintDebt.Text (EndsLine)

/-! ## One line -/

/-- A line of the log as it reads back: without the fields that are never stored. -/
def stored (e : LogEntry) : LogEntry :=
  { e with todo := e.todo.stored }

/-- A line of the log reads back from its operation and its todo. -/
theorem ofJson?_of_members {op : LogOp} {t : Todo} {members : List (String × Json)}
    (hop : Json.Field.lookup? ⟨"op", none⟩ members = some (some (.str op.name)))
    (htodo : Todo.ofJson? (.obj members) = some t) :
    ofJson? (.obj members) = some ⟨op, t⟩ := by
  unfold ofJson?
  simp only [hop, htodo, Option.bind_eq_bind, Option.bind_some, Json.unit?, LogOp.ofName?_name]

/-- A line of the log reads back from its JSON. -/
theorem ofJson?_toJson (e : LogEntry) : ofJson? e.toJson = some e.stored := by
  have hname : "op" ∉ e.todo.slots.map Prod.fst := by simp [Todo.slots]
  refine ofJson?_of_members ?_ (e.todo.ofJson?_cons_members hname (.str e.op.name))
  rw [e.todo.members_eq_given]
  exact Json.lookup?_given (("op", some (.str e.op.name)) :: e.todo.slots)
    (by simp [Todo.slots]) List.mem_cons_self

/-- A line of the log is written for strict readers. -/
theorem isStrict_toJson (e : LogEntry) : e.toJson.isStrict = true := by
  apply Json.isStrict_obj
  intro m hm
  rw [e.todo.members_eq_given] at hm
  rcases List.mem_cons.mp hm with rfl | hm
  · exact ⟨rfl, Nat.lt_of_lt_of_le Nat.zero_lt_one (by decide)⟩
  · obtain ⟨slot, hslot, hvalue⟩ := List.mem_flatMap.mp hm
    obtain ⟨value, hin, rfl⟩ := List.mem_map.mp hvalue
    have hmem : (slot.1, some value) ∈ e.todo.slots := by
      rw [← Option.mem_toList.mp hin]
      exact hslot
    obtain ⟨hsound, hdepth⟩ := Todo.isSound_of_mem_slots hmem
    exact ⟨hsound, Nat.lt_of_le_of_lt hdepth (by decide)⟩

/-- A line of the log reads back from its text, without the fields that are never stored. -/
theorem parse?_compact (e : LogEntry) : parse? e.toJson.compact = some e.stored := by
  rw [parse?, Json.parseStrict?_compact e.isStrict_toJson, Option.bind_some, ofJson?_toJson]

/-! ## The whole log -/

/-- The text of a line of the log can be shown. -/
theorem showable_compact (e : LogEntry) : Json.Showable e.toJson.compact.toList := by
  rw [Json.compact, String.toList_ofList]
  exact Json.showable_render e.toJson

/-- The text of a line of the log is one line, and not a blank one. -/
theorem lines_compact (e : LogEntry) :
    Text.lines (e.toJson.compact ++ "\n") = [e.toJson.compact] ∧
      Text.allBlank e.toJson.compact = false := by
  have hshow := e.showable_compact
  constructor
  · apply Text.lines_line
    · intro hmem
      exact absurd (hshow _ hmem) (by decide)
    · intro hlast
      exact absurd (hshow _ (List.mem_of_getLast? hlast)) (by decide)
  · have hhead : e.toJson.compact.toList = '\x7b' ::
        (Json.renderMembers (("op", .str e.op.name) :: e.todo.members) ++ ['\x7d']) := by
      rw [Json.compact, String.toList_ofList]
      rfl
    rw [Text.allBlank, hhead, List.all_cons]
    rfl

/-- The text of a log with one more entry in front. -/
theorem encode_cons (e : LogEntry) (entries : List LogEntry) :
    encode (e :: entries) = e.toJson.compact ++ "\n" ++ encode entries := by
  unfold encode
  rw [List.map_cons, String.join_cons]

/-- The texts of two logs follow each other. -/
theorem encode_append (front back : List LogEntry) :
    encode (front ++ back) = encode front ++ encode back := by
  unfold encode
  rw [List.map_append, String.join_append]

/-- The lines of a log are the texts of its entries. -/
theorem lines_encode (entries : List LogEntry) :
    Text.lines (encode entries) = entries.map fun e => e.toJson.compact := by
  induction entries with
  | nil => simp [encode, Text.lines, Text.split, Text.linesOfPieces]
  | cons e entries ih =>
    have hends : EndsLine (e.toJson.compact ++ "\n") := by
      simpa using EndsLine.append_line e.toJson.compact ""
    rw [encode_cons, Text.lines_append hends, e.lines_compact.1, ih]
    rfl

/-- A text ends with a whole line when entries are appended to it. -/
theorem endsLine_append_encode_of_ne_nil {entries : List LogEntry} (h : entries ≠ []) (s : String) :
    EndsLine (s ++ encode entries) := by
  obtain ⟨front, last, rfl⟩ := (List.eq_nil_or_concat entries).resolve_left h
  have hlast : encode [last] = last.toJson.compact ++ "\n" := by
    rw [encode_cons]
    simp [encode]
  have hform : s ++ encode (front ++ [last]) =
      (s ++ encode front) ++ last.toJson.compact ++ "\n" := by
    rw [encode_append, hlast, String.append_assoc, String.append_assoc]
  rw [List.concat_eq_append, hform]
  exact EndsLine.append_line _ _

/-- A written log ends with a whole line. -/
theorem endsLine_append_encode {s : String} (h : EndsLine s) (entries : List LogEntry) :
    EndsLine (s ++ encode entries) := by
  by_cases hentries : entries = []
  · subst hentries
    simpa [encode] using h
  · exact endsLine_append_encode_of_ne_nil hentries s

/-- A written log is empty or ends with a whole line. -/
theorem endsLine_encode (entries : List LogEntry) : EndsLine (encode entries) := by
  have h := endsLine_append_encode (Or.inl rfl) entries
  rwa [String.empty_append] at h

/-- Lines that were written read back, whatever their numbers. -/
theorem decodeLines_map_compact (number : Nat) (entries : List LogEntry) :
    decodeLines number (entries.map fun e => e.toJson.compact) = .ok (entries.map stored) := by
  induction entries generalizing number with
  | nil => rfl
  | cons e entries ih =>
    rw [List.map_cons, decodeLines, e.lines_compact.2, if_neg Bool.false_ne_true, e.parse?_compact,
      ih]
    rfl

/-- Lines are read one after the other. -/
theorem decodeLines_append (number : Nat) (front back : List String) :
    decodeLines number (front ++ back) = (decodeLines number front).bind fun entries =>
      (decodeLines (number + front.length) back).map (entries ++ ·) := by
  induction front generalizing number with
  | nil =>
    cases h : decodeLines number back with
    | error k => simp [decodeLines, h, Except.bind, Except.map]
    | ok entries => simp [decodeLines, h, Except.bind, Except.map]
  | cons line front ih =>
    have hcount : number + 1 + front.length = number + (line :: front).length := by
      rw [List.length_cons]
      omega
    rw [List.cons_append, decodeLines, decodeLines, ih, hcount]
    split
    · rfl
    · cases parse? line with
      | none => rfl
      | some entry =>
        cases decodeLines (number + 1) front with
        | error k => rfl
        | ok entries =>
          cases decodeLines (number + (line :: front).length) back <;> rfl

/-- What is written behind whole lines reads back behind what they hold. -/
theorem decode_append_encode {s : String} (h : EndsLine s) (entries : List LogEntry) :
    decode (s ++ encode entries) = (decode s).map (· ++ entries.map stored) := by
  unfold decode
  rw [Text.lines_append h, lines_encode, decodeLines_append]
  cases decodeLines 1 (Text.lines s) with
  | error k => rfl
  | ok old =>
    show (decodeLines _ _).map _ = _
    rw [decodeLines_map_compact]
    rfl

/-- A log reads back from its text. -/
theorem decode_encode (entries : List LogEntry) :
    decode (encode entries) = .ok (entries.map stored) := by
  unfold decode
  rw [lines_encode, decodeLines_map_compact]

/-- The live todos do not depend on the fields that are never stored. -/
theorem live_map_stored (live : Batch) (entries : List LogEntry) :
    live.applyAll (entries.map stored) = live.applyAll entries := by
  unfold Batch.applyAll
  rw [List.foldl_map]
  rfl

/-- The live todos of a log are those of its front with what follows applied to them, stored or not. -/
theorem live_append_stored (front back : List LogEntry) :
    live (front ++ back.map stored) = (live front).applyAll back := by
  rw [← live_map_stored (live front)]
  exact List.foldl_append

end LogEntry

end LintDebt
