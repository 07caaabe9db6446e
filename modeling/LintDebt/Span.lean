import LintDebt.Json.Record
import LintDebt.Text.Lines

/-!
# Positions and spans

* `LintDebt.Position`: a line and a column, counted from 1; line 0 stands for no position.
* `LintDebt.Span`: the stretch of a file from one position to another.
* `LintDebt.Span.sourceLines`: the whole lines of a file that a span touches.
-/

namespace LintDebt

open Json (fieldNames required uint32? uint32 always)

/-- A place in a file. -/
structure Position where
  /-- The line, counted from 1. -/
  line : UInt32
  /-- The column, counted from 1. -/
  column : UInt32
  deriving DecidableEq, Repr

/-- The stretch of a file from one place to another. -/
structure Span where
  /-- Where the stretch starts. -/
  start : Position
  /-- Where it ends. -/
  stop : Position
  deriving DecidableEq, Repr

namespace Position

/-- A position in JSON. -/
def toJson (p : Position) : Json :=
  .obj (always "line" (uint32 p.line) ++ always "column" (uint32 p.column))

/-- The position that a JSON value denotes. -/
def ofJson? (j : Json) : Option Position := do
  let [line, column] ← j.fields? (fieldNames ["line", "column"]) | none
  some ⟨← required uint32? line, ← required uint32? column⟩

end Position

namespace Span

/-- The span of a diagnostic: an end that is not given is where the span starts. -/
def normalized (line column : UInt32) (endLine endColumn : Option UInt32) : Span :=
  ⟨⟨line, column⟩, ⟨endLine.getD line, endColumn.getD column⟩⟩

/-- A span in JSON. -/
def toJson (s : Span) : Json :=
  .obj (always "start" s.start.toJson ++ always "end" s.stop.toJson)

/-- The span that a JSON value denotes. -/
def ofJson? (j : Json) : Option Span := do
  let [start, stop] ← j.fields? (fieldNames ["start", "end"]) | none
  some ⟨← required Position.ofJson? start, ← required Position.ofJson? stop⟩

/-- The whole lines of a file that a span touches, joined by line feeds; nothing for a span
without a position. -/
def sourceLines (span : Span) (contents : String) : String :=
  if span.start.line = 0 then ""
  else
    let first := span.start.line.toNat - 1
    let last := max span.stop.line.toNat span.start.line.toNat
    "\n".intercalate (((Text.lines contents).drop first).take (last - first))

end Span

end LintDebt
