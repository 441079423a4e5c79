import DocTemplate.Edit.Geometry
import DocTemplate.Section.Entry

/-!
# Edits

The changes that can be made to a document, each with the position where it takes effect and the
number of positions by which it moves what stands behind. Callers can send edits of their own, so
an edit holds JSON data wherever it is only passed on; `shift` needs numbers and says so.
-/

namespace DocTemplate

/-- A change of a document. -/
inductive Edit where
  /-- A change of no particular kind, which cannot be carried out. -/
  | unspecified
  /-- Deletes the positions from `start` up to `stop`. -/
  | deleteRange (start stop : Json)
  /-- Inserts text in front of a position. -/
  | insertText (index : Json) (text : Entry)
  /-- Inserts an empty table in front of a position. -/
  | insertTable (index rows columns : Json)
  /-- Merges the cells of a range of a table. -/
  | mergeCells (table row column rowSpan columnSpan : Json)
  /-- Sets the style of the text from `start` up to `stop`. What is null is not set. -/
  | setTextStyle (start stop bold fontSize : Json)
  /-- Sets how the paragraphs from `start` up to `stop` are aligned. -/
  | setAlignment (start stop alignment : Json)
  /-- Removes the borders of the cells of a table. -/
  | removeBorders (table rowSpan columnSpan : Json)
  /-- Sets the width of columns of a table, in points. -/
  | setColumnWidth (table : Json) (columns : List Json) (width : Json)
  /-- Replaces every occurrence of a text. -/
  | replaceText (find replacement : Entry) (matchCase : Json)

namespace Edit

/-- The name of the kind of an edit. -/
def kindName : Edit → String
  | unspecified => "mutation"
  | deleteRange .. => "delete_range"
  | insertText .. => "insert_text"
  | insertTable .. => "insert_table"
  | mergeCells .. => "merge_cells"
  | setTextStyle .. => "set_text_style"
  | setAlignment .. => "set_paragraph_style"
  | removeBorders .. => "set_cell_style"
  | setColumnWidth .. => "set_column_properties"
  | replaceText .. => "replace_all_text"

/-- The position where an edit moves what stands behind; zero if it moves nothing. -/
def index : Edit → Json
  | deleteRange start _ => start
  | insertText index _ => index
  | insertTable index _ _ => index
  | _ => .int 0

/-- By how much an edit lengthens the document. -/
def shift : Edit → Except Fault Int
  | deleteRange start stop => (stop.minus start).map (-·)
  | insertText _ text => text.encodable.map fun t => t.units
  | insertTable index rows columns => (TableGeometry.read index rows columns).map TableGeometry.size
  | _ => .ok 0

/-- By how much some edits lengthen the document. -/
def totalShift (edits : List Edit) : Except Fault Int :=
  edits.foldlM (fun total e => return total + (← e.shift)) 0

/-- An edit in a few words. Of a long text only the beginning is shown. -/
def describe : Edit → String
  | unspecified => "mutation"
  | deleteRange start stop => s!"delete {start.display}-{stop.display}"
  | insertText index text =>
    let text := text.shown
    let beginning := String.ofList (text.take 20) ++ (if text.length > 20 then "..." else "")
    s!"insert '{beginning}' at {index.display}"
  | insertTable index rows columns =>
    s!"insert {rows.display}x{columns.display} table at {index.display}"
  | mergeCells _ row column rowSpan columnSpan =>
    s!"merge cells ({row.display}, {column.display}) span {rowSpan.display}x{columnSpan.display}"
  | setTextStyle start stop bold fontSize =>
    s!"style {start.display}-{stop.display} bold={bold.display} size={fontSize.display}"
  | setAlignment start stop alignment =>
    s!"align {start.display}-{stop.display} {alignment.display}"
  | removeBorders table _ _ => s!"remove borders of table at {table.display}"
  | setColumnWidth _ columns width =>
    let listed := (Json.arr columns).display
    s!"set columns {listed} width {width.display}pt"
  | replaceText find _ _ =>
    let find := String.ofList find.shown
    s!"replace all '{find}'"

end Edit

end DocTemplate
