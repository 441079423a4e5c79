import DocTemplate.Document.Basic
import DocTemplate.Document.Tabs
import DocTemplate.Failure
import DocTemplate.Json.Arithmetic

/-!
# Reading documents

Turns the JSON of a document into its tree of blocks. An element of a kind outside the closed set
is an error and not skipped; it is named by its first field that is not an index. Indices are taken
as they are. Those that are absent are inherited: an element starts where its parent starts and ends
where it starts, except for a run of text, which ends after its content and therefore has to start
at a number.
-/

namespace DocTemplate

instance : MonadLift (Except Fault) (Except Failure) where
  monadLift
    | .ok a => .ok a
    | .error f => .error (.fault f)

namespace Json

/-- The kind that an element of no known kind is named by. -/
def elementKind : Json → String
  | obj fields =>
    match fields.find? fun f => f.1 != "startIndex" && f.1 != "endIndex" with
    | some (key, _) => key
    | none => "<empty>"
  | _ => "<empty>"

end Json

/-- The error for an element of no known kind. -/
def unsupported (element start : Json) : Failure :=
  .engine (.unsupportedElement (.str element.elementKind) start)

/-- Reads an element of a paragraph that starts at `start`. -/
def readParagraphElement (start j : Json) : Except Failure ParagraphElement := do
  let first ← j.fieldD "startIndex" start
  let last ← j.fieldD "endIndex" first
  match j.get? "textRun" with
  | some run =>
    match ← run.fieldD "content" (.str "") with
    | .str s =>
      let content : Text := s.toList
      let first ← first.summand
      let last ← j.fieldD "endIndex" (.int (first.value + content.units))
      return .run ⟨first, last, content, ← run.fieldD "textStyle" (.obj [])⟩
    | other => throw (.fault (.lacks other.kind "encode"))
  | none =>
    match InlineKind.all.find? fun kind => (j.get? kind.name).isSome with
    | some kind => return .inline ⟨kind, first, last⟩
    | none => throw (unsupported j first)

/-- Reads a paragraph with the given range. -/
def readParagraph (j start stop : Json) : Except Failure Paragraph := do
  let elements ← (← j.recordsAt "elements").mapM (readParagraphElement start)
  let style ← (← j.fieldD "paragraphStyle" (.obj [])).fieldD "namedStyleType" (.str "NORMAL_TEXT")
  return ⟨start, stop, elements, style⟩

mutual

/-- Reads a block. -/
def readBlock (j : Json) : Except Failure Block := do
  let first ← j.fieldD "startIndex" (.int 0)
  let last ← j.fieldD "endIndex" first
  match j.get? "paragraph" with
  | some p => return .paragraph (← readParagraph p first last)
  | none =>
    match _table : j.get? "table" with
    | some t =>
      match _rows : t.recordsAt "tableRows" with
      | .error f => throw (.fault f)
      | .ok rows => return .table ⟨first, last, ← readRows first rows⟩
    | none =>
      if (j.get? "sectionBreak").isSome then
        return .sectionBreak first last
      else
        match _contents : j.get? "tableOfContents" with
        | some c =>
          match _blocks : c.recordsAt "content" with
          | .error f => throw (.fault f)
          | .ok blocks => return .contents first last (← readBlocks blocks)
        | none => throw (unsupported j first)
termination_by sizeOf j
decreasing_by
  · have := Json.sizeOf_lt_of_get? _table
    have := Json.sizeOf_lt_of_recordsAt _rows
    omega
  · have := Json.sizeOf_lt_of_get? _contents
    have := Json.sizeOf_lt_of_recordsAt _blocks
    omega

/-- Reads blocks in order. -/
def readBlocks (js : List Json) : Except Failure (List Block) :=
  match js with
  | [] => .ok []
  | j :: rest => return (← readBlock j) :: (← readBlocks rest)
termination_by sizeOf js
decreasing_by all_goals simp only [List.cons.sizeOf_spec]; omega

/-- Reads the rows of a table that starts at `start`. -/
def readRows (start : Json) (js : List Json) : Except Failure (List Row) :=
  match js with
  | [] => .ok []
  | j :: rest => do
    let first ← j.fieldD "startIndex" start
    match _cells : j.recordsAt "tableCells" with
    | .error f => throw (.fault f)
    | .ok cells =>
      let cells ← readCells first cells
      let last ← j.fieldD "endIndex" first
      return ⟨first, last, cells⟩ :: (← readRows start rest)
termination_by sizeOf js
decreasing_by
  · have := Json.sizeOf_lt_of_recordsAt _cells
    simp only [List.cons.sizeOf_spec]
    omega
  · simp only [List.cons.sizeOf_spec]
    omega

/-- Reads the cells of a row that starts at `start`. -/
def readCells (start : Json) (js : List Json) : Except Failure (List Cell) :=
  match js with
  | [] => .ok []
  | j :: rest => do
    let first ← j.fieldD "startIndex" start
    let style ← j.fieldD "tableCellStyle" (.obj [])
    let last ← j.fieldD "endIndex" first
    match _blocks : j.recordsAt "content" with
    | .error f => throw (.fault f)
    | .ok blocks =>
      let content ← readBlocks blocks
      let rowSpan ← style.fieldD "rowSpan" (.int 1)
      let columnSpan ← style.fieldD "columnSpan" (.int 1)
      return ⟨first, last, content, rowSpan, columnSpan⟩ :: (← readCells start rest)
termination_by sizeOf js
decreasing_by
  · have := Json.sizeOf_lt_of_recordsAt _blocks
    simp only [List.cons.sizeOf_spec]
    omega
  · simp only [List.cons.sizeOf_spec]
    omega

end

/-- Reads the body of a document, in the tab with id `tabId` if there is one. -/
def readBody (document tabId : Json) : Except Failure Body := do
  let body ← selectBody document tabId
  return ⟨← readBlocks (← body.recordsAt "content")⟩

end DocTemplate
