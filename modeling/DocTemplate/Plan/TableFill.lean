import DocTemplate.Document.Anchor
import DocTemplate.Edit.Basic
import DocTemplate.Edit.Shift
import DocTemplate.Section.Layout

/-!
# Filling tables

The edits that fill an empty table by a layout. Every position is read off the table as it stands
before the first edit and then moved by the text that the earlier edits inserted.

A table can also be planned together with its insertion: where its cells will be is known from its
geometry, and the marker whose place it takes is pushed back by its size and deleted at the end.
-/

namespace DocTemplate

/-- The edits that put a text at `start` and style it as a cell asks for. -/
def CellPlan.edits (c : CellPlan) (start : Int) (text : Text) : List Edit :=
  let stop := start + text.units
  [.insertText (.int start) (.text text),
    .setTextStyle (.int start) (.int stop) c.bold c.fontSize] ++
    if c.alignment.isGiven then [.setAlignment (.int start) (.int stop) c.alignment] else []

/-- The edits that fill some cells after the insertions `done`, and all insertions after them. A
cell whose text is empty is left as it is. -/
def fillCells (table : Table) (done : Insertions) :
    List CellPlan → Except Failure (List Edit × Insertions)
  | [] => .ok ([], done)
  | c :: rest => do
    let anchor ← table.insertionIndex c.row c.column
    if c.text.isGiven then
      let text ← c.text.encodable
      let (edits, all) ← fillCells table (done.record anchor text.units) rest
      return (c.edits (done.map anchor) text ++ edits, all)
    else fillCells table done rest

/-- The edit that deletes a marker which stood at this range before the insertions `done`. -/
def deleteMarker (done : Insertions) (start stop : Json) : Except Fault Edit := do
  let start ← start.summand
  let stop ← stop.summand
  return .deleteRange (.int (done.map start.value)) (.int (done.map stop.value))

/-- The edits that fill a table: merge the title row, fill the cells, remove the borders, set the
widths of the columns, and delete the marker. -/
def planTableFill (table : Table) (layout : TableLayout) (marker : Option (Json × Json)) :
    Except Failure (List Edit) := do
  let merge := if ← layout.hasTitleRow then
      [.mergeCells table.start (.int 0) (.int 0) (.int 1) (.int 2)]
    else []
  let (fill, done) ← fillCells table {} layout.cells
  let borders := [.removeBorders table.start layout.rowCount layout.columnCount]
  let widths := layout.columnWidths.zipIdx.map fun (width, column) =>
    .setColumnWidth table.start [.int column] width
  let delete ← match marker with
    | some (start, stop) => do pure [← deleteMarker done start stop]
    | none => pure []
  return merge ++ fill ++ borders ++ widths ++ delete

/-- The edits that put a filled table in the place of the marker from `start` up to `stop`. -/
def planMarkerTable (start stop : Json) (layout : TableLayout) : Except Failure (List Edit) := do
  let geometry ← TableGeometry.read start layout.rowCount layout.columnCount
  let stop ← stop.plus geometry.size
  let fill ← planTableFill geometry.toTable layout
    (some (.int (geometry.insertionIndex + geometry.size), .int stop))
  return .insertTable start layout.rowCount layout.columnCount :: fill

end DocTemplate
