import DocTemplate.Edit.Basic
import DocTemplate.Json.Shape

/-!
# Requests

The form in which an edit is sent to the document service. An edit of no kind has none. A change of
style that sets nothing has the form null.
-/

namespace DocTemplate

namespace Json

/-- A range of positions. -/
def range (start stop : Json) : Json :=
  .obj [("startIndex", start), ("endIndex", stop)]

/-- A position. -/
def location (index : Json) : Json :=
  .obj [("index", index)]

/-- A range of cells of a table. -/
def cellRange (table row column rowSpan columnSpan : Json) : Json :=
  .obj [("tableCellLocation",
      .obj [("tableStartLocation", location table), ("rowIndex", row), ("columnIndex", column)]),
    ("rowSpan", rowSpan), ("columnSpan", columnSpan)]

/-- A length in points. -/
def points (magnitude : Json) : Json :=
  .obj [("magnitude", magnitude), ("unit", .str "PT")]

/-- A border that is not drawn. -/
def noBorder : Json :=
  .obj [("width", points (.int 0)), ("dashStyle", .str "SOLID"), ("color", .obj [])]

end Json

/-- The names of the four borders of a cell. -/
def borderFields : List String :=
  ["borderTop", "borderBottom", "borderLeft", "borderRight"]

namespace Edit

/-- A style under its name, unless it is null. -/
def styleField (name : String) (form : Json → Json) : Json → List (String × Json)
  | .null => []
  | style => [(name, form style)]

/-- The styles that are set, by name. -/
def textStyleFields (bold fontSize : Json) : List (String × Json) :=
  styleField "bold" id bold ++ styleField "fontSize" Json.points fontSize

/-- The request for an edit. -/
def toRequest : Edit → Except Fault Json
  | unspecified => .error .noRequest
  | deleteRange start stop =>
    .ok (.obj [("deleteContentRange", .obj [("range", .range start stop)])])
  | insertText index text =>
    .ok (.obj [("insertText", .obj [("location", .location index), ("text", text.toJson)])])
  | insertTable index rows columns =>
    .ok (.obj [("insertTable",
      .obj [("location", .location index), ("rows", rows), ("columns", columns)])])
  | mergeCells table row column rowSpan columnSpan =>
    .ok (.obj [("mergeTableCells",
      .obj [("tableRange", .cellRange table row column rowSpan columnSpan)])])
  | setTextStyle start stop bold fontSize =>
    let fields := textStyleFields bold fontSize
    if fields.isEmpty then .ok .null
    else .ok (.obj [("updateTextStyle",
      .obj [("range", .range start stop), ("textStyle", .obj fields),
        ("fields", .str (",".intercalate (fields.map (·.1))))])])
  | setAlignment start stop alignment =>
    .ok (.obj [("updateParagraphStyle",
      .obj [("range", .range start stop), ("paragraphStyle", .obj [("alignment", alignment)]),
        ("fields", .str "alignment")])])
  | removeBorders table rowSpan columnSpan =>
    .ok (.obj [("updateTableCellStyle",
      .obj [("tableRange", .cellRange table (.int 0) (.int 0) rowSpan columnSpan),
        ("tableCellStyle", .obj (borderFields.map (·, .noBorder))),
        ("fields", .str (",".intercalate borderFields))])])
  | setColumnWidth table columns width =>
    .ok (.obj [("updateTableColumnProperties",
      .obj [("tableStartLocation", .location table), ("columnIndices", .arr columns),
        ("tableColumnProperties",
          .obj [("widthType", .str "FIXED_WIDTH"), ("width", .points width)]),
        ("fields", .str "widthType,width")])])
  | replaceText find replacement matchCase =>
    .ok (.obj [("replaceAllText",
      .obj [("containsText", .obj [("text", find.toJson), ("matchCase", matchCase)]),
        ("replaceText", replacement.toJson)])])

/-- The requests for some edits, in order. -/
def toRequests (edits : List Edit) : Except Fault (List Json) :=
  edits.mapM toRequest

end Edit

end DocTemplate
