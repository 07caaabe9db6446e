import LintDebt.Proofs.Policy
import LintDebt.Proofs.Toml.Lexeme

/-!
# Policies written in TOML read back

The document of a policy is read line by line, its lines are grouped into tables, and the tables are entered
into a document one after the other.  The table of the single rules is made by the header of the first of
them, which only passes through it.

* `LintDebt.Toml.Reads`: what statements a text is read as.
* `LintDebt.Toml.Heading`: the header of a table, with the path that it is read as.
* `LintDebt.Toml.reads_tables`, `sections_tables`: tables are read one after the other.
* `LintDebt.Toml.enter?_general`, `enter?_rule`: what one table adds to a document.
* `LintDebt.Toml.foldlM_enter?_rules`: what the tables of all rules add to it.
* `LintDebt.DecayPolicy.parse?_toToml`: the document of a policy denotes it.
-/

namespace LintDebt

open LintDebt.Text (decimalDigits exists_digit_eq_decimalDigits)

namespace Toml

/-! ## Lines -/

/-- A text is read as the given statements. -/
def Reads (s : List Char) (statements : List Statement) : Prop :=
  ∀ fuel, s.length < fuel → statements? fuel s = some statements

variable {s rest : List Char} {statements : List Statement}

/-- The empty text says nothing. -/
theorem reads_nil : Reads [] [] := by
  rintro (_ | fuel) h
  · cases h
  · rfl

/-- Nor does an empty line. -/
theorem Reads.newline (h : Reads s statements) : Reads ('\n' :: s) statements := by
  rintro (_ | fuel) hfuel
  · cases hfuel
  · exact h fuel (Nat.lt_of_succ_lt_succ hfuel)

/-- A line that starts with a character of its own is read as its statement. -/
theorem Reads.statement {c : Char} {statement : Statement} (hblank : isBlank c = false)
    (hcomment : c ≠ '#') (hline : c ≠ '\n') (hreturn : c ≠ '\r')
    (hread : statement? (c :: s) = some (statement, rest)) (hshort : rest.length < (c :: s).length)
    (h : Reads rest statements) : Reads (c :: s) (statement :: statements) := by
  rintro (_ | fuel) hfuel
  · cases hfuel
  · rw [statements?, skipBlank_cons hblank]
    split
    · next e => cases e
    · next e => exact absurd (List.cons.inj e).1 hcomment
    · next e => exact absurd (List.cons.inj e).1 hline
    · next e => exact absurd (List.cons.inj e).1 hreturn
    · rw [hread]
      simp only [Option.bind_eq_bind, Option.bind_some]
      rw [h fuel (by omega), Option.bind_some]

/-- A key starts with no bracket. -/
theorem ne_bracket_of_key? {found : List String × List Char} (h : key? s = some found) (s' : List Char) :
    s ≠ '[' :: s' := by
  rintro rfl
  cases h

/-- The line of a name with a number is read as such. -/
theorem statement?_assignment {name : String} {n : Nat} (hname : isBareKey name.toList = true)
    (hn : n < 2 ^ 63) (rest : List Char) :
    statement? (name.toList ++ (" = ".toList ++ (decimalDigits n ++ '\n' :: rest))) =
      some (.assignment [name] (.integer n), rest) := by
  have hkey : key? (name.toList ++ (" = ".toList ++ (decimalDigits n ++ '\n' :: rest))) =
      some ([name], '=' :: ' ' :: (decimalDigits n ++ '\n' :: rest)) := by
    have hpart : keyPart? (name.toList ++ (" = ".toList ++ (decimalDigits n ++ '\n' :: rest))) =
        some (name, " = ".toList ++ (decimalDigits n ++ '\n' :: rest)) := by
      rw [keyPart?_bare hname (by rintro c ⟨⟩; rfl), String.ofList_toList]
    exact keyParts?_last hpart (by rintro c ⟨⟩; decide) _
  have hvalue : skipBlank (' ' :: (decimalDigits n ++ '\n' :: rest)) = decimalDigits n ++ '\n' :: rest := by
    obtain ⟨c, cs, hcs, hc⟩ := exists_digit_eq_decimalDigits n
    have hbare : isBareKeyChar c = true := by simp [isBareKeyChar, Char.isAlphanum, hc]
    rw [hcs, List.cons_append]
    exact skipBlank_cons (isBlank_of_isBareKeyChar hbare) _
  rw [statement?.eq_def]
  split
  · next e => exact absurd e (ne_bracket_of_key? hkey _)
  · next e => exact absurd e (ne_bracket_of_key? hkey _)
  · rw [hkey]
    simp only [Option.bind_eq_bind, Option.bind_some]
    rw [char?, if_pos rfl, Option.bind_some, hvalue, value?_decimalDigits hn]
    rfl

/-- A header with the path that it is read as. -/
structure Heading where
  text : String
  path : List String
  reads : ∀ rest, key? (text.toList ++ ']' :: rest) = some (path, ']' :: rest)

namespace Heading

/-- The header of the general window. -/
def general : Heading where
  text := "days_to_decay"
  path := ["days_to_decay"]
  reads := by
    intro rest
    have hname : keyPart? ("days_to_decay".toList ++ ']' :: rest) = some ("days_to_decay", ']' :: rest) :=
      keyPart?_bare (by decide) (by rintro c ⟨⟩; rfl)
    exact keyParts?_last hname (by rintro c ⟨⟩; decide) _

/-- The header of the window of a rule. -/
def ofRule (rule : String) : Heading where
  text := "days_to_decay_by_rule." ++ quoteKey rule
  path := ["days_to_decay_by_rule", rule]
  reads := by
    intro rest
    have hrule : keyPart? ((quoteKey rule).toList ++ ']' :: rest) = some (rule, ']' :: rest) :=
      keyPart?_quoteKey rule (by rintro c ⟨⟩; rfl)
    have hname : keyPart? ("days_to_decay_by_rule".toList ++ '.' :: ((quoteKey rule).toList ++ ']' :: rest)) =
        some ("days_to_decay_by_rule", '.' :: ((quoteKey rule).toList ++ ']' :: rest)) :=
      keyPart?_bare (by decide) (by rintro c ⟨⟩; rfl)
    have htext : ("days_to_decay_by_rule." ++ quoteKey rule).toList ++ ']' :: rest =
        "days_to_decay_by_rule".toList ++ '.' :: ((quoteKey rule).toList ++ ']' :: rest) := by
      rw [String.toList_append, List.append_assoc]
      rfl
    rw [htext, key?, nestingLimit, keyParts?_dot hname, keyParts?_last hrule]
    · rfl
    · rintro c ⟨⟩
      decide

end Heading

/-- The line of a header is read as such. -/
theorem statement?_heading (heading : Heading) (rest : List Char) :
    statement? ('[' :: (heading.text.toList ++ ']' :: '\n' :: rest)) =
      some (.header heading.path, rest) := by
  have hkey := heading.reads ('\n' :: rest)
  rw [statement?.eq_def]
  split
  · next e => exact absurd (List.cons.inj e).2 (ne_bracket_of_key? hkey _)
  · next e =>
    obtain rfl := (List.cons.inj e).2
    rw [hkey]
    rfl
  · next hnot => exact absurd rfl (hnot _)

end Toml

/-! ## Tables -/

namespace DecayWindow

/-- The sides of a window that are set, with their names. -/
def sides (w : DecayWindow) : List (String × UInt32) :=
  w.warn.toList.map ("warn", ·) ++ w.error.toList.map ("error", ·)

/-- The lines of a window are those of its sides. -/
theorem toList_toTomlLines (w : DecayWindow) : w.toTomlLines.toList =
    w.sides.flatMap fun (name, n) => name.toList ++ (" = ".toList ++ (decimalDigits n.toNat ++ ['\n'])) := by
  obtain ⟨_ | warn, _ | error⟩ := w <;> simp [toTomlLines, sides, decimalDigits]

/-- The assignments of a window. -/
def assignments (w : DecayWindow) : List (List String × Toml.Value) :=
  w.sides.map fun (name, n) => ([name], .integer n.toNat)

end DecayWindow

namespace Toml

variable {rest : List Char} {statements : List Statement}

/-- A line of a name with a number stands in front of what is read behind it. -/
theorem Reads.assignment (h : Reads rest statements) {name : String} {n : Nat}
    (hname : isBareKey name.toList = true) (hn : n < 2 ^ 63) :
    Reads (name.toList ++ (" = ".toList ++ (decimalDigits n ++ '\n' :: rest)))
      (.assignment [name] (.integer n) :: statements) := by
  have hread := statement?_assignment hname hn rest
  obtain ⟨hne, hall⟩ := Bool.and_eq_true_iff.mp hname
  have hlength : rest.length < (name.toList ++ (" = ".toList ++ (decimalDigits n ++ '\n' :: rest))).length := by
    simp only [List.length_append, List.length_cons]
    omega
  cases hchars : name.toList with
  | nil =>
    rw [hchars] at hne
    cases hne
  | cons c cs =>
    rw [hchars] at hread hall hlength
    have hc : isBareKeyChar c = true := List.all_eq_true.mp hall c List.mem_cons_self
    have hother (d : Char) (hd : isBareKeyChar d = false) : c ≠ d := by
      rintro rfl
      rw [hd] at hc
      cases hc
    exact h.statement (isBlank_of_isBareKeyChar hc) (hother _ rfl) (hother _ rfl) (hother _ rfl) hread hlength

/-- The line of a header stands in front of what is read behind it. -/
theorem Reads.heading (h : Reads rest statements) (heading : Heading) :
    Reads ('[' :: (heading.text.toList ++ ']' :: '\n' :: rest)) (.header heading.path :: statements) := by
  refine h.statement rfl (by decide) (by decide) (by decide) (statement?_heading heading rest) ?_
  simp only [List.length_append, List.length_cons]
  omega

/-- The lines of a window stand in front of what is read behind them. -/
theorem Reads.lines (h : Reads rest statements) (w : DecayWindow) :
    Reads (w.toTomlLines.toList ++ rest)
      ((w.assignments.map fun (path, value) => .assignment path value) ++ statements) := by
  have hnames : ∀ side ∈ w.sides, isBareKey side.1.toList = true := by
    intro side hside
    rcases List.mem_append.mp hside with hside | hside
    · obtain ⟨n, -, rfl⟩ := List.mem_map.mp hside
      show isBareKey "warn".toList = true
      decide
    · obtain ⟨n, -, rfl⟩ := List.mem_map.mp hside
      show isBareKey "error".toList = true
      decide
  rw [DecayWindow.toList_toTomlLines, DecayWindow.assignments, List.map_map]
  generalize w.sides = sides at hnames ⊢
  induction sides with
  | nil => exact h
  | cons side sides ih =>
    obtain ⟨name, n⟩ := side
    have hn : n.toNat < 2 ^ 63 := Nat.lt_of_lt_of_le n.toNat_lt (by decide)
    have hline := (ih fun side hside => hnames side (List.mem_cons_of_mem _ hside)).assignment
      (hnames _ List.mem_cons_self) hn
    simpa using hline

/-- What is read from a table. -/
def tableStatements (table : Heading × DecayWindow) : List Statement :=
  .header table.1.path :: table.2.assignments.map fun (path, value) => .assignment path value

/-- A table stands in front of what is read behind it. -/
theorem Reads.table (h : Reads rest statements) (table : Heading × DecayWindow) :
    Reads ((table.2.toTomlTable table.1.text).toList ++ rest) (tableStatements table ++ statements) := by
  have htext : (table.2.toTomlTable table.1.text).toList ++ rest =
      '[' :: (table.1.text.toList ++ ']' :: '\n' :: (table.2.toTomlLines.toList ++ rest)) := by
    simp [DecayWindow.toTomlTable]
  rw [htext]
  exact (h.lines table.2).heading table.1

/-- Tables with empty lines between them are read one after the other. -/
theorem reads_tables (tables : List (Heading × DecayWindow)) :
    Reads (("\n".intercalate (tables.map fun (heading, w) => w.toTomlTable heading.text)).toList)
      (tables.flatMap tableStatements) := by
  rw [String.toList_intercalate, List.map_map]
  induction tables with
  | nil => exact reads_nil
  | cons table tables ih =>
    cases tables with
    | nil =>
      have h := reads_nil.table table
      rw [List.append_nil] at h
      simpa using h
    | cons next tables =>
      rw [List.map_cons, List.map_cons, List.intercalate_cons_cons, List.append_assoc, List.flatMap_cons]
      exact ih.newline.table table

/-- The group of statements of a table. -/
def tableSection (table : Heading × DecayWindow) : Section :=
  ⟨some (.header table.1.path), table.2.assignments⟩

/-- Statements of tables are grouped by table. -/
theorem sections_tables (tables : List (Heading × DecayWindow)) :
    sections (tables.flatMap tableStatements) = ⟨none, []⟩ :: tables.map tableSection := by
  have hassign (assignments : List (List String × Value)) {statements : List Statement} {first : Section}
      {more : List Section} (h : sections statements = first :: more) :
      sections ((assignments.map fun (path, value) => .assignment path value) ++ statements) =
        { first with assignments := assignments ++ first.assignments } :: more := by
    induction assignments with
    | nil => exact h
    | cons assignment rest ih =>
      rw [List.map_cons, List.cons_append, sections, ih]
      rfl
  induction tables with
  | nil => rfl
  | cons table tables ih =>
    rw [List.flatMap_cons, tableStatements, List.cons_append, sections, hassign _ ih, List.append_nil,
      List.map_cons, tableSection]
    nofun

end Toml

/-- The tables of a policy. -/
def DecayPolicy.tables (p : DecayPolicy) : List (Toml.Heading × DecayWindow) :=
  p.window.toList.map (Toml.Heading.general, ·) ++ p.byRule.map fun (rule, w) => (.ofRule rule, w)

/-- The document of a policy is that of its tables. -/
theorem DecayPolicy.toToml_eq (p : DecayPolicy) :
    p.toToml = "\n".intercalate (p.tables.map fun (heading, w) => w.toTomlTable heading.text) := by
  unfold toToml tables
  dsimp only
  congr 1
  rw [List.map_append, List.map_map, List.map_map]
  rfl

/-! ## The document -/

namespace Toml

/-- The entries of a window in its table. -/
def windowEntries (w : DecayWindow) : List (String × Item) :=
  w.sides.map fun (name, n) => (name, .value (.integer n.toNat))

/-- The sides of a window are set one after the other. -/
theorem putAll?_assignments (w : DecayWindow) :
    Table.putAll? {} w.assignments = some { entries := windowEntries w } := by
  obtain ⟨_ | warn, _ | error⟩ := w <;> rfl

/-- The table of a window. -/
def windowItem (w : DecayWindow) : Item :=
  .table false false (windowEntries w)

/-- The entries of a document with a general window and windows of single rules. -/
def documentEntries (window : Option DecayWindow) (byRule : RuleWindows) : List (String × Item) :=
  window.toList.map (fun w => ("days_to_decay", windowItem w)) ++
    if byRule.isEmpty then []
    else [("days_to_decay_by_rule", .table true false (byRule.map fun (rule, w) => (rule, windowItem w)))]

namespace Table

variable {t child : Table} {key : String} {assignments : List (List String × Value)}

/-- A key that no entry has is not found. -/
theorem find?_of_new (h : key ∉ t.entries.map Prod.fst) : t.find? key = none := by
  have hfind : t.entries.find? (·.1 == key) = none := by
    refine List.find?_eq_none.mpr fun entry hentry => ?_
    rw [beq_iff_eq]
    rintro rfl
    exact h (List.mem_map_of_mem hentry)
  rw [find?, hfind]
  rfl

/-- Such a key is set behind the others. -/
theorem set_of_new (h : key ∉ t.entries.map Prod.fst) (item : Item) :
    t.set key item = { t with entries := t.entries ++ [(key, item)] } := by
  refine if_neg ?_
  rw [List.any_eq_true]
  rintro ⟨entry, hentry, hkey⟩
  exact h (List.mem_map.mpr ⟨entry, hentry, beq_iff_eq.mp hkey⟩)

/-- A header of one part that no entry has opens a table behind the others. -/
theorem define?_of_new (h : key ∉ t.entries.map Prod.fst) (hput : putAll? {} assignments = some child) :
    t.define? [key] assignments = some { t with entries := t.entries ++ [(key, child.toItem)] } := by
  simp only [define?, List.getLast?_singleton, List.dropLast_singleton, descend?, find?_of_new h, hput,
    set_of_new h, Option.bind_eq_bind, Option.bind_some]

variable {name : String}

/-- A header of two parts opens its table in the one that it passes through, which is made when it is
missing. -/
theorem define?_of_missing (h : t.find? name = none) :
    t.define? [name, key] assignments =
      (define? { implicit := true } [key] assignments).map fun child => t.set name child.toItem := by
  show descend? false (fun t => t.define? [key] assignments) [name] t = _
  simp only [descend?, h, Option.map_eq_bind]
  rfl

/-- A header of two parts goes on in the table that it passes through, when there is one. -/
theorem define?_of_table {implicit dotted : Bool} {entries : List (String × Item)}
    (h : t.find? name = some (.table implicit dotted entries)) :
    t.define? [name, key] assignments =
      (define? ⟨implicit, dotted, entries⟩ [key] assignments).map fun child => t.set name child.toItem := by
  show descend? false (fun t => t.define? [key] assignments) [name] t = _
  simp only [descend?, h, Option.map_eq_bind]
  rfl

end Table

/-- The table of the general window opens a document. -/
theorem enter?_general (w : DecayWindow) :
    Table.enter? {} (tableSection (.general, w)) = some { entries := documentEntries (some w) [] } := by
  show Table.define? {} ["days_to_decay"] w.assignments = _
  exact Table.define?_of_new List.not_mem_nil (putAll?_assignments w)

/-- The table of a rule that has none yet comes behind those of the other rules. -/
theorem enter?_rule (window : Option DecayWindow) {byRule : RuleWindows} {rule : String} (w : DecayWindow)
    (hnew : rule ∉ byRule.map Prod.fst) :
    Table.enter? { entries := documentEntries window byRule } (tableSection (.ofRule rule, w)) =
      some { entries := documentEntries window (byRule ++ [(rule, w)]) } := by
  have hput := putAll?_assignments w
  show Table.define? _ ["days_to_decay_by_rule", rule] w.assignments = _
  cases byRule with
  | nil =>
    have hmissing : "days_to_decay_by_rule" ∉ (documentEntries window []).map Prod.fst := by
      cases window with
      | none => exact List.not_mem_nil
      | some w =>
        show "days_to_decay_by_rule" ∉ ["days_to_decay"]
        decide
    rw [Table.define?_of_missing (Table.find?_of_new hmissing), Table.define?_of_new List.not_mem_nil hput,
      Option.map_some, Table.set_of_new hmissing]
    simp [documentEntries, windowItem, Table.toItem]
  | cons entry rest =>
    have hnew' : rule ∉ ((entry :: rest).map fun (rule, w) => (rule, windowItem w)).map Prod.fst := by
      rwa [List.map_map]
    have hfind : Table.find? { entries := documentEntries window (entry :: rest) } "days_to_decay_by_rule" =
        some (.table true false ((entry :: rest).map fun (rule, w) => (rule, windowItem w))) := by
      cases window <;> rfl
    rw [Table.define?_of_table hfind, Table.define?_of_new hnew' hput, Option.map_some]
    cases window <;> simp [documentEntries, windowItem, Table.toItem, Table.set]

/-- The tables of rules that have none yet come one after the other. -/
theorem foldlM_enter?_rules (window : Option DecayWindow) (rules done : RuleWindows)
    (hnodup : ((done ++ rules).map Prod.fst).Nodup) :
    (rules.map fun (rule, w) => tableSection (.ofRule rule, w)).foldlM Table.enter?
        { entries := documentEntries window done } =
      some { entries := documentEntries window (done ++ rules) } := by
  induction rules generalizing done with
  | nil => rw [List.append_nil]; rfl
  | cons entry rest ih =>
    obtain ⟨rule, w⟩ := entry
    have hcons : done ++ (rule, w) :: rest = done ++ [(rule, w)] ++ rest := by
      rw [List.append_assoc]
      rfl
    have hnew : rule ∉ done.map Prod.fst := by
      rw [List.map_append, List.nodup_append] at hnodup
      intro hmem
      exact hnodup.2.2 rule hmem rule List.mem_cons_self rfl
    rw [List.map_cons, List.foldlM_cons, enter?_rule window w hnew, Option.bind_eq_bind, Option.bind_some,
      hcons]
    exact ih _ (hcons ▸ hnodup)

/-- What is read does not start with the mark of a document. -/
theorem Reads.dropMark {s : List Char} {statements : List Statement} (h : Reads s statements) :
    dropMark s = s := by
  unfold Toml.dropMark
  split
  · next rest => cases h _ (Nat.lt_succ_self _)
  · rfl

/-- The members of a finished table in JSON are those of its entries. -/
theorem membersToJson_entriesToValues (entries : List (String × Item)) :
    Value.membersToJson (entriesToValues entries) =
      entries.map fun (key, item) => (key, item.toValue.toJson) := by
  induction entries with
  | nil => rfl
  | cons entry rest ih =>
    obtain ⟨key, item⟩ := entry
    rw [entriesToValues, Value.membersToJson, ih]
    rfl

/-- The table of a window denotes the window. -/
theorem toJson_windowItem (w : DecayWindow) : (windowItem w).toValue.toJson = w.toJson := by
  obtain ⟨_ | warn, _ | error⟩ := w <;> rfl

/-- The document of a policy denotes it. -/
theorem toJson_documentEntries (p : DecayPolicy) :
    (Table.toValue { entries := documentEntries p.window p.byRule }).toJson = p.toJson := by
  have hrules : Value.membersToJson (entriesToValues (p.byRule.map fun (rule, w) => (rule, windowItem w))) =
      p.byRule.map fun (rule, w) => (rule, w.toJson) := by
    rw [membersToJson_entriesToValues, List.map_map]
    exact List.map_congr_left fun (rule, w) _ => congrArg (rule, ·) (toJson_windowItem w)
  have hobj : (Table.toValue { entries := documentEntries p.window p.byRule }).toJson =
      .obj ((documentEntries p.window p.byRule).map fun (key, item) => (key, item.toValue.toJson)) :=
    congrArg Json.obj (membersToJson_entriesToValues _)
  rw [hobj, DecayPolicy.toJson]
  congr 1
  unfold documentEntries
  rw [List.map_append]
  congr 1
  · cases p.window with
    | none => rfl
    | some w => exact congrArg (fun j => [("days_to_decay", j)]) (toJson_windowItem w)
  · split
    · rfl
    · rw [← hrules]
      rfl

end Toml

/-- A policy that is written in TOML reads back, when its windows are for different rules. -/
theorem DecayPolicy.parse?_toToml {p : DecayPolicy} (h : (p.byRule.map Prod.fst).Nodup) :
    ∃ document, Toml.parse? p.toToml = some document ∧ document.toJson = p.toJson := by
  have hreads := Toml.reads_tables p.tables
  rw [← p.toToml_eq] at hreads
  refine ⟨_, ?_, Toml.toJson_documentEntries p⟩
  have hfold : (Toml.sections (p.tables.flatMap Toml.tableStatements)).foldlM Toml.Table.enter? {} =
      some { entries := Toml.documentEntries p.window p.byRule } := by
    have hrules := Toml.foldlM_enter?_rules p.window p.byRule [] h
    have hnone : Toml.Table.enter? {} ⟨none, []⟩ = some {} := rfl
    rw [List.nil_append] at hrules
    rw [Toml.sections_tables, List.foldlM_cons, hnone, Option.bind_eq_bind, Option.bind_some, tables,
      List.map_append, List.map_map, List.map_map, List.foldlM_append]
    cases hwindow : p.window with
    | none =>
      rw [hwindow] at hrules
      exact hrules
    | some w =>
      rw [hwindow] at hrules
      rw [Option.toList_some, List.map_singleton, List.foldlM_cons, Function.comp_apply, Toml.enter?_general]
      exact hrules
  rw [Toml.parse?, hreads.dropMark]
  simp only [Option.bind_eq_bind]
  rw [hreads _ (Nat.lt_succ_self _), Option.bind_some, hfold, Option.bind_some]

end LintDebt
