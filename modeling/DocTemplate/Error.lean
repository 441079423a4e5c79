import DocTemplate.Json.Arithmetic
import DocTemplate.Json.Printer

/-!
# Errors of the engine

The ways in which finding, placing and filling markers can fail, each with a report that says what
was received, what was expected and what to do about it. `EngineError` lists the causes;
`EngineError.report` is the wording of each; `Report.toJson` is the record that callers see, which
leaves out what is empty. Revisions, indices and names are quoted as they were found, whatever JSON
data they are.
-/

namespace DocTemplate

/-- What an error was about. A part that is `none` does not appear in the record. -/
structure ReportContext where
  received : Option Json := none
  expected : Option Json := none
  availableSections : Option Json := none
  possibleCauses : Option Json := none

/-- An error with advice. It is fatal unless processing goes on after it. -/
structure Report where
  error : Json := .bool true
  code : Json := .str ""
  message : Json := .str ""
  reason : Json := .str ""
  suggestion : Json := .str ""
  fatal : Json := .bool true
  context : Option ReportContext := none

/-- The parts of a context that are there. -/
def ReportContext.fields (c : ReportContext) : List (String × Json) :=
  [("received", c.received), ("expected", c.expected), ("available_sections", c.availableSections),
    ("possible_causes", c.possibleCauses)].filterMap fun (k, v) => v.map (k, ·)

/-- The record of an error. Reason and suggestion appear if they are not empty, the context if one
of its parts is there. -/
def Report.toJson (r : Report) : Json :=
  let contextFields := (r.context.map ReportContext.fields).getD []
  .obj ([("error", r.error), ("code", r.code), ("message", r.message), ("fatal", r.fatal)] ++
    (if r.reason.isGiven then [("reason", r.reason)] else []) ++
    (if r.suggestion.isGiven then [("suggestion", r.suggestion)] else []) ++
    (if contextFields.isEmpty then [] else [("context", .obj contextFields)]))

/-- The record of an error as text, two spaces for each level. -/
def Report.render (r : Report) : String :=
  r.toJson.render (some 2)

/-- An error of the engine, by its cause. -/
inductive EngineError where
  /-- A tag of an asset section at this offset is not part of a block. -/
  | malformedMarker (sectionName position issue : Json)
  /-- A section marker has no data; these sections have some. -/
  | unknownSection (sectionName : Json) (available : List Json)
  /-- Positions were asked for that belong to another revision, or to none. -/
  | staleSnapshot (expected received index : Json)
  /-- A table of this many rows and columns has no such cell. -/
  | cellNotFound (row column rows columns : Json)
  /-- No table was found where one was inserted. -/
  | tableNotFound (insertionIndex totalTables : Json)
  /-- A document holds an element of an unknown kind. -/
  | unsupportedElement (kind start : Json)
  deriving Repr

namespace EngineError

/-- The error for a section marker without data, given the names of the sections that have some. -/
def noData (sectionName : Text) (available : List Text) : EngineError :=
  .unknownSection (.ofText sectionName) ((available.mergeSort Text.le).map Json.ofText)

/-- The report of an error. -/
def report : EngineError → Report
  | malformedMarker sectionName position issue =>
    let name := sectionName.display
    let place := position.display
    let issue := issue.display
    { code := .str "MALFORMED_MARKER"
      message := .str s!"Asset section '{name}' at position {place} is {issue}"
      reason := .str ("An asset section needs a matching closing tag with the same name. " ++
        "Unmatched tags are left in the document as plain text.")
      suggestion := .str ("Close the block with \x7b\x7b/#ASSET_SECTION:" ++ name ++
        "\x7d\x7d or remove the opening tag.")
      fatal := .bool false
      context := some
        { received := some (.obj [("section_name", sectionName), ("position", position)]) } }
  | unknownSection sectionName available =>
    let name := sectionName.display
    { code := .str "UNKNOWN_SECTION_NAME"
      message := .str s!"No data supplied for section '{name}'"
      reason := .str ("The marker was left unresolved in the document; " ++
        "other markers were processed.")
      suggestion := .str ("Provide section data keyed by the exact name used in the " ++
        "[[section:...]] marker.")
      fatal := .bool false
      context := some
        { received := some (.obj [("section_name", sectionName)])
          availableSections := some (.arr available) } }
  | staleSnapshot expected received index =>
    { code := .str "STALE_SNAPSHOT"
      message := .str "Document positions were computed from an outdated snapshot"
      reason := .str ("Every insertion or deletion shifts all later document indices, so " ++
        "positions are only valid for the snapshot they were read from.")
      suggestion := .str "Re-fetch the document and re-extract its text before retrying."
      context := some
        { received := some (.obj (("revision_id", received) ::
            (match index with
              | .null => []
              | index => [("text_index", index)])))
          expected := some (.obj [("revision_id", expected)]) } }
  | cellNotFound row column rows columns =>
    let cell := s!"({row.display}, {column.display})"
    { code := .str "CELL_NOT_FOUND"
      message := .str (s!"Cell {cell} not found. " ++
        s!"Table has {rows.display} row(s) and {columns.display} column(s)")
      reason := .str ("Row and column indices are 0-based and must fall inside the table " ++
        "returned by the document store.")
      suggestion := .str ("Re-fetch the document and check the table was created with the " ++
        "expected dimensions.")
      context := some
        { received := some (.obj [("row", row), ("column", column)])
          expected := some (.obj [("rows", rows), ("columns", columns)])
          possibleCauses := some (.arr [.str "The store created fewer rows than requested",
            .str "The table was edited after the snapshot was taken"]) } }
  | tableNotFound insertionIndex totalTables =>
    { code := .str "TABLE_NOT_FOUND"
      message := .str (s!"No table found near index {insertionIndex.display}. " ++
        s!"Document has {totalTables.display} table(s)")
      reason := .str "The table insertion did not produce a table at the expected position."
      suggestion := .str "Re-fetch the document and inspect it before retrying the section."
      context := some { received := some (.obj [("insertion_index", insertionIndex)]) } }
  | unsupportedElement kind start =>
    { code := .str "UNSUPPORTED_ELEMENT"
      message := .str s!"Unsupported document element '{kind.display}'"
      reason := .str ("Only paragraphs, tables, section breaks and tables of contents are " ++
        "understood.")
      suggestion := .str "Remove the element from the template or extend the document model."
      context := some { received := some (.obj [("kind", kind), ("start_index", start)]) } }

/-- The error in one sentence. -/
def message (e : EngineError) : String :=
  e.report.message.display

/-- The record of an error. -/
def toJson (e : EngineError) : Json :=
  e.report.toJson

end EngineError

end DocTemplate
