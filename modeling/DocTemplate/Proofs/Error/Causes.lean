import DocTemplate.Proofs.Error.Records

/-!
# What errors say of their causes

The record of an error tells its cause to callers: by a code, by a sentence in which the data stand
that the error is about, and by these data themselves under their names, next to a reason and a
suggestion. `Cause` is what is to be told, `Cause.ToldBy` that a record tells it, and
`EngineError.cause` the cause of each error of the engine. Main result: `EngineError.toldBy_toJson`.

What a report says and what its record holds are kept apart: whatever record holds the fields of a
report tells the cause that the report tells (`Report.RecordedBy.toldBy`).
-/

namespace DocTemplate

/-! ## Parts of a message -/

/-- A message has a part. -/
def Mentions (message part : String) : Prop :=
  ∃ front back, message = front ++ part ++ back

namespace Mentions

variable {s t part : String}

theorem self (part : String) : Mentions part part :=
  ⟨"", "", by rw [String.empty_append, String.append_empty]⟩

theorem left (h : Mentions s part) : Mentions (s ++ t) part := by
  obtain ⟨front, back, rfl⟩ := h
  exact ⟨front, back ++ t, String.append_assoc⟩

theorem right (h : Mentions t part) : Mentions (s ++ t) part := by
  obtain ⟨front, back, rfl⟩ := h
  exact ⟨s ++ front, back, by simp only [String.append_assoc]⟩

end Mentions

/-! ## Causes -/

/-- What callers are told of an error. -/
structure Cause where
  /-- The name under which callers know errors of this kind. -/
  code : String
  /-- What the message quotes. -/
  quoted : List String
  /-- What the context holds, by name. -/
  context : List (String × Json)

namespace Cause

/-- The record tells the cause of an error and gives advice. -/
structure ToldBy (c : Cause) (record : Json) : Prop where
  error : record.get? "error" = some (.bool true)
  code : record.get? "code" = some (.str c.code)
  message : ∃ message, record.get? "message" = some (.str message) ∧
    ∀ part ∈ c.quoted, Mentions message part
  reason : ∃ reason, record.get? "reason" = some (.str reason) ∧ reason ≠ ""
  suggestion : ∃ suggestion, record.get? "suggestion" = some (.str suggestion) ∧ suggestion ≠ ""
  context : ∃ context, record.get? "context" = some context ∧
    ∀ part ∈ c.context, context.get? part.1 = some part.2

/-- The text tells the cause of an error: it is a JSON text, two spaces for each level, and its
record tells it. -/
def ToldIn (c : Cause) (text : String) : Prop :=
  ∃ record : Json, c.ToldBy record ∧ text = record.render (some 2) ∧
    Json.Denotes text.toList record

theorem ToldBy.toldIn {c : Cause} {record : Json} (h : c.ToldBy record) :
    c.ToldIn (record.render (some 2)) :=
  ⟨record, h, rfl, Json.denotes_render (some 2) record⟩

end Cause

/-- The cause of an error of the engine. -/
def EngineError.cause : EngineError → Cause
  | malformedMarker sectionName position issue =>
    ⟨"MALFORMED_MARKER", [sectionName.display, position.display, issue.display],
      [("received", .obj [("section_name", sectionName), ("position", position)])]⟩
  | unknownSection sectionName available =>
    ⟨"UNKNOWN_SECTION_NAME", [sectionName.display],
      [("received", .obj [("section_name", sectionName)]), ("available_sections", .arr available)]⟩
  | staleSnapshot expected received index =>
    ⟨"STALE_SNAPSHOT", [], [("received", .obj (("revision_id", received) ::
        if index.kind = .null then [] else [("text_index", index)])),
      ("expected", .obj [("revision_id", expected)])]⟩
  | cellNotFound row column rows columns =>
    ⟨"CELL_NOT_FOUND", [row.display, column.display, rows.display, columns.display],
      [("received", .obj [("row", row), ("column", column)]),
        ("expected", .obj [("rows", rows), ("columns", columns)])]⟩
  | tableNotFound insertionIndex totalTables =>
    ⟨"TABLE_NOT_FOUND", [insertionIndex.display, totalTables.display],
      [("received", .obj [("insertion_index", insertionIndex)])]⟩
  | unsupportedElement kind start =>
    ⟨"UNSUPPORTED_ELEMENT", [kind.display],
      [("received", .obj [("kind", kind), ("start_index", start)])]⟩

/-! ## Reports -/

/-- The report tells a cause and gives advice. -/
structure Report.Tells (r : Report) (c : Cause) : Prop where
  error : r.error = .bool true
  code : r.code = .str c.code
  message : ∃ message, r.message = .str message ∧ ∀ part ∈ c.quoted, Mentions message part
  reason : ∃ reason, r.reason = .str reason ∧ reason ≠ ""
  suggestion : ∃ suggestion, r.suggestion = .str suggestion ∧ suggestion ≠ ""
  context : ∃ context, r.context = some context ∧
    ∀ part ∈ c.context, context.part? part.1 = some part.2
  context_ne_nil : c.context ≠ []

theorem Json.isGiven_str {s : String} (h : s ≠ "") : (Json.str s).isGiven = true := by
  rw [isGiven, Bool.not_eq_true', ← Bool.not_eq_true, String.isEmpty_iff]
  exact h

theorem Report.RecordedBy.toldBy {r : Report} {record : Json} {c : Cause}
    (h : r.RecordedBy record) (htells : r.Tells c) : c.ToldBy record := by
  obtain ⟨message, hmessage, hquoted⟩ := htells.message
  obtain ⟨reason, hreason, hreasonNe⟩ := htells.reason
  obtain ⟨suggestion, hsuggestion, hsuggestionNe⟩ := htells.suggestion
  obtain ⟨context, hcontext, hparts⟩ := htells.context
  obtain ⟨part, rest, hcons⟩ := List.exists_cons_of_ne_nil htells.context_ne_nil
  have hpart : (context.part? part.1).isSome := by
    rw [hparts part (hcons ▸ List.mem_cons_self)]
    rfl
  obtain ⟨held, hheld⟩ := Option.isSome_iff_exists.1 (h.hasContext.2 ⟨_, _, hcontext, hpart⟩)
  obtain ⟨context', hcontext', hholds⟩ := h.context held hheld
  obtain rfl := Option.some.inj (hcontext.symm.trans hcontext')
  refine ⟨?_, ?_, ⟨message, ?_, hquoted⟩, ⟨reason, ?_, hreasonNe⟩,
    ⟨suggestion, ?_, hsuggestionNe⟩, held, hheld, fun part hmem => ?_⟩
  · rw [h.error, htells.error]
  · rw [h.code, htells.code]
  · rw [h.message, hmessage]
  · rw [h.reason, hreason, if_pos (Json.isGiven_str hreasonNe)]
  · rw [h.suggestion, hsuggestion, if_pos (Json.isGiven_str hsuggestionNe)]
  · rw [hholds.part, hparts part hmem]

/-! ## Errors of the engine -/

namespace EngineError

theorem mentions_message (e : EngineError) :
    ∃ message, e.report.message = .str message ∧
      ∀ part ∈ e.cause.quoted, Mentions message part := by
  cases e with
  | malformedMarker sectionName position issue =>
    refine ⟨_, rfl, ?_⟩
    simp only [cause, List.forall_mem_cons]
    exact ⟨.left (.left (.left (.left (.right (.self _))))), .left (.left (.right (.self _))),
      .right (.self _), List.forall_mem_nil _⟩
  | unknownSection sectionName available =>
    refine ⟨_, rfl, ?_⟩
    simp only [cause, List.forall_mem_cons]
    exact ⟨.left (.right (.self _)), List.forall_mem_nil _⟩
  | staleSnapshot expected received index => exact ⟨_, rfl, List.forall_mem_nil _⟩
  | cellNotFound row column rows columns =>
    refine ⟨_, rfl, ?_⟩
    simp only [cause, List.forall_mem_cons]
    -- the cell is quoted in the first half of the message, the size of the table in the second
    refine ⟨.left (.left (.right ?_)), .left (.left (.right ?_)), .right ?_, .right ?_,
      List.forall_mem_nil _⟩
    · exact .left (.left (.left (.right (.self row.display))))
    · exact .left (.right (.self column.display))
    · exact .left (.left (.left (.right (.self rows.display))))
    · exact .left (.right (.self columns.display))
  | tableNotFound insertionIndex totalTables =>
    refine ⟨_, rfl, ?_⟩
    simp only [cause, List.forall_mem_cons]
    exact ⟨.left (.left (.right (.self _))), .right (.left (.right (.self _))),
      List.forall_mem_nil _⟩
  | unsupportedElement kind start =>
    refine ⟨_, rfl, ?_⟩
    simp only [cause, List.forall_mem_cons]
    exact ⟨.left (.right (.self _)), List.forall_mem_nil _⟩

theorem part?_context (e : EngineError) :
    ∃ context, e.report.context = some context ∧
      ∀ part ∈ e.cause.context, context.part? part.1 = some part.2 := by
  cases e with
  | staleSnapshot expected received index =>
    refine ⟨_, rfl, List.forall_mem_cons.2 ⟨?_, List.forall_mem_singleton.2 rfl⟩⟩
    cases index <;> rfl
  | _ => exact ⟨_, rfl, by simp [cause, ReportContext.part?]⟩

theorem report_tells (e : EngineError) : e.report.Tells e.cause := by
  have hadvice : (∃ reason, e.report.reason = .str reason ∧ reason ≠ "") ∧
      ∃ suggestion, e.report.suggestion = .str suggestion ∧ suggestion ≠ "" := by
    cases e with
    | malformedMarker sectionName position issue =>
      exact ⟨⟨_, rfl, by decide⟩, ⟨_, rfl, by simp⟩⟩
    | _ => exact ⟨⟨_, rfl, by decide⟩, ⟨_, rfl, by decide⟩⟩
  refine ⟨?_, ?_, e.mentions_message, hadvice.1, hadvice.2, e.part?_context, ?_⟩
  · cases e <;> rfl
  · cases e <;> rfl
  · cases e <;> exact List.cons_ne_nil _ _

/-- The record of an error of the engine tells its cause. -/
theorem toldBy_toJson (e : EngineError) : e.cause.ToldBy e.toJson :=
  e.report.recordedBy_toJson.toldBy e.report_tells

/-- The text of an error of the engine stands for a record of its report and for nothing else. -/
theorem recordedBy_of_denotes (e : EngineError) {record : Json}
    (h : Json.Denotes (e.toJson.render (some 2)).toList record) : e.report.RecordedBy record :=
  (Json.denotes_render (some 2) e.toJson).eq h ▸ e.report.recordedBy_toJson

end EngineError

end DocTemplate
