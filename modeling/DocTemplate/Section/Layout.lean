import DocTemplate.Json.Arithmetic
import DocTemplate.Section.Basic

/-!
# Table layouts

How a section is laid out as a table of two columns. The first row is the title, merged over both
columns, unless the title is empty; every pair has a row of its own below it, in the order in which
the pairs were given. A caller can also make a layout up, so its numbers and styles may be any JSON
data.
-/

namespace DocTemplate

/-- A cell to be filled. -/
structure CellPlan where
  row : Json
  column : Json
  text : Entry
  bold : Json
  fontSize : Json
  columnSpan : Json := .int 1
  alignment : Json := .null

/-- A table to be filled. -/
structure TableLayout where
  rowCount : Json
  columnCount : Json
  cells : List CellPlan
  columnWidths : List Json := [.int 200, .int 300]

/-- Whether some of these cells stand in the first row and span columns. -/
def spansFirstRow : List CellPlan → Except Fault Bool
  | [] => .ok false
  | c :: rest => do
    if c.row.same (.int 0) then
      if ← c.columnSpan.greater (.int 1) then return true else spansFirstRow rest
    else spansFirstRow rest

/-- Whether the first row holds a cell that spans columns. -/
def TableLayout.hasTitleRow (l : TableLayout) : Except Fault Bool :=
  spansFirstRow l.cells

/-- The sizes of type, in points, and what is put in front of every value. -/
structure LayoutStyle where
  titleFontSize : Json := .int 14
  bodyFontSize : Json := .int 12
  valueLead : Text := []

/-- The cells of pairs of which the first stands in row `row`. -/
def pairCells (style : LayoutStyle) (row : Int) : List KeyValue → List CellPlan
  | [] => []
  | p :: rest =>
    { row := .int row, column := .int 0, text := p.key, bold := .bool true
      fontSize := style.bodyFontSize } ::
    { row := .int row, column := .int 1, text := .text (style.valueLead ++ p.value.shown)
      bold := .bool false, fontSize := style.bodyFontSize } ::
    pairCells style (row + 1) rest

/-- The layout of a section. -/
def Section.layout (s : Section) (style : LayoutStyle := {}) : TableLayout :=
  if s.title.isGiven then
    { rowCount := .int (s.pairs.length + 1)
      columnCount := .int 2
      cells :=
        { row := .int 0, column := .int 0, text := s.title, bold := .bool true
          fontSize := style.titleFontSize, columnSpan := .int 2, alignment := .str "CENTER" } ::
          pairCells style 1 s.pairs }
  else
    { rowCount := .int s.pairs.length
      columnCount := .int 2
      cells := pairCells style 0 s.pairs }

end DocTemplate
