import DocTemplate.Edit.Basic

/-!
# Records of edits

The JSON form in which edits are sent and reported: the name of the kind and the parts by name. A
part that is absent takes its usual value; one that is null is null.
-/

namespace DocTemplate.Edit

/-- The parts of an edit by name. -/
def parts : Edit → List (String × Json)
  | unspecified => []
  | deleteRange start stop => [("start_index", start), ("end_index", stop)]
  | insertText index text => [("at", index), ("text", text.toJson)]
  | insertTable index rows columns => [("at", index), ("rows", rows), ("columns", columns)]
  | mergeCells table row column rowSpan columnSpan =>
    [("table_start", table), ("row", row), ("column", column), ("row_span", rowSpan),
      ("column_span", columnSpan)]
  | setTextStyle start stop bold fontSize =>
    [("start_index", start), ("end_index", stop), ("bold", bold), ("font_size", fontSize)]
  | setAlignment start stop alignment =>
    [("start_index", start), ("end_index", stop), ("alignment", alignment)]
  | removeBorders table rowSpan columnSpan =>
    [("table_start", table), ("row_span", rowSpan), ("column_span", columnSpan)]
  | setColumnWidth table columns width =>
    [("table_start", table), ("column_indices", .arr columns), ("width", width)]
  | replaceText find replacement matchCase =>
    [("find_text", find.toJson), ("replace_text", replacement.toJson), ("match_case", matchCase)]

/-- The record of an edit. -/
def toJson (e : Edit) : Json :=
  .obj (("type", .str e.kindName) :: e.parts)

/-- The edit of some kind whose parts `part` gives, each with the value that it takes if it is
absent. -/
def ofParts (kind : String) (part : String → Json → Json) : Except Fault Edit :=
  let start := part "start_index" (.int 0)
  let stop := part "end_index" (.int 0)
  let index := part "at" (.int 1)
  let table := part "table_start" (.int 0)
  let rowSpan := part "row_span" (.int 1)
  let columnSpan := part "column_span" (.int 2)
  match kind with
  | "delete_range" => .ok (.deleteRange start stop)
  | "insert_text" => .ok (.insertText index (.ofJson (part "text" (.str ""))))
  | "insert_table" =>
    .ok (.insertTable index (part "rows" (.int 1)) (part "columns" (.int 2)))
  | "merge_cells" =>
    .ok (.mergeCells table (part "row" (.int 0)) (part "column" (.int 0)) rowSpan columnSpan)
  | "set_text_style" =>
    .ok (.setTextStyle start stop (part "bold" .null) (part "font_size" .null))
  | "set_paragraph_style" => .ok (.setAlignment start stop (part "alignment" (.str "START")))
  | "set_cell_style" => .ok (.removeBorders table rowSpan columnSpan)
  | "set_column_properties" => do
    let columns ← (part "column_indices" (.arr [])).elements
    return .setColumnWidth table columns (part "width" (.int 0))
  | "replace_all_text" =>
    .ok (.replaceText (.ofJson (part "find_text" (.str "")))
      (.ofJson (part "replace_text" (.str ""))) (part "match_case" (.bool true)))
  | _ => .ok .unspecified

/-- The edit that a record stands for. -/
def ofJson (j : Json) : Except Fault Edit := do
  let kind ← j.fieldD "type" .null
  ofParts (kind.string?.getD "") fun name default => (j.get? name).getD default

/-- The edits that an array of records stands for. -/
def listOfJson (j : Json) : Except Fault (List Edit) := do
  (← j.elements).mapM ofJson

end DocTemplate.Edit
