import DocTemplate.Section.Layout

/-!
# Records of table layouts

The JSON form in which a layout is sent and reported. A cell that does not say so spans one column
and is not aligned in any way.
-/

namespace DocTemplate

/-- Reads a cell of a layout. -/
def CellPlan.ofJson (j : Json) : Except Fault CellPlan :=
  return {
    row := ← j.fieldD "row" .null
    column := ← j.fieldD "column" .null
    text := .ofJson (← j.fieldD "text" .null)
    bold := ← j.fieldD "bold" .null
    fontSize := ← j.fieldD "font_size" .null
    columnSpan := ← j.fieldD "column_span" (.int 1)
    alignment := ← j.fieldD "alignment" .null }

/-- The record of a cell of a layout. -/
def CellPlan.toJson (c : CellPlan) : Json :=
  .obj [("row", c.row), ("column", c.column), ("text", c.text.toJson), ("bold", c.bold),
    ("font_size", c.fontSize), ("column_span", c.columnSpan), ("alignment", c.alignment)]

namespace TableLayout

/-- Reads a layout. -/
def ofJson (j : Json) : Except Fault TableLayout :=
  return {
    rowCount := ← j.fieldD "row_count" .null
    columnCount := ← j.fieldD "column_count" .null
    cells := ← (← (← j.fieldD "cells" (.arr [])).elements).mapM CellPlan.ofJson
    columnWidths := ← (← j.fieldD "column_widths" (.arr [.int 200, .int 300])).elements }

/-- The record of a layout. -/
def toJson (l : TableLayout) : Except Fault Json :=
  return .obj [("row_count", l.rowCount), ("column_count", l.columnCount),
    ("column_widths", .arr l.columnWidths), ("has_title_row", .bool (← l.hasTitleRow)),
    ("cells", .arr (l.cells.map CellPlan.toJson))]

end TableLayout

end DocTemplate
