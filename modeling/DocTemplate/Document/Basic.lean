import DocTemplate.Text.Units
import DocTemplate.Json.Number

/-!
# Documents

The body of a document as a tree of blocks. Every node keeps the native range that the document
service reported for it, counted in UTF-16 code units; positions are never computed by adding up
the structure around them. A range is kept as it was reported, whether its ends are numbers or not:
only what computes with an end needs a number there. The start of a run of text is computed with
from the outset, so it is a number.

A block is a paragraph, a table, a section break or a table of contents. Tables hold rows of
cells, and cells and tables of contents hold blocks again.
-/

namespace DocTemplate

/-- A run of text with one style. The style is kept as the service gave it. -/
structure TextRun where
  start : Number
  stop : Json
  content : Text
  style : Json := .obj []

/-- The elements of a paragraph that take up positions but hold no text. -/
inductive InlineKind where
  | pageBreak | columnBreak | inlineObjectElement | horizontalRule | footnoteReference | autoText
  | equation | person | richLink
  deriving DecidableEq, Repr

/-- The name of a kind in a document. -/
def InlineKind.name : InlineKind → String
  | .pageBreak => "pageBreak"
  | .columnBreak => "columnBreak"
  | .inlineObjectElement => "inlineObjectElement"
  | .horizontalRule => "horizontalRule"
  | .footnoteReference => "footnoteReference"
  | .autoText => "autoText"
  | .equation => "equation"
  | .person => "person"
  | .richLink => "richLink"

/-- All kinds, in the order in which an element is tested for them. -/
def InlineKind.all : List InlineKind :=
  [.pageBreak, .columnBreak, .inlineObjectElement, .horizontalRule, .footnoteReference, .autoText,
    .equation, .person, .richLink]

/-- An element of a paragraph that holds no text. -/
structure InlineElement where
  kind : InlineKind
  start : Json
  stop : Json

/-- An element of a paragraph. -/
inductive ParagraphElement where
  | run (r : TextRun)
  | inline (e : InlineElement)

/-- A paragraph. The name of its style is kept as the service gave it. -/
structure Paragraph where
  start : Json
  stop : Json
  elements : List ParagraphElement
  namedStyle : Json := .str "NORMAL_TEXT"

mutual

/-- A block of a document. -/
inductive Block where
  | paragraph (p : Paragraph)
  | table (t : Table)
  | sectionBreak (start stop : Json)
  | contents (start stop : Json) (content : List Block)

/-- A table. -/
structure Table where
  start : Json
  stop : Json
  rows : List Row

/-- A row of a table. -/
structure Row where
  start : Json
  stop : Json
  cells : List Cell

/-- A cell of a table. -/
structure Cell where
  start : Json
  stop : Json
  content : List Block
  rowSpan : Json
  columnSpan : Json

end

/-- The body of a document. -/
structure Body where
  content : List Block

/-- The text that an element contributes. -/
def ParagraphElement.text : ParagraphElement → Text
  | .run r => r.content
  | .inline _ => []

/-- The text of a paragraph. -/
def Paragraph.text (p : Paragraph) : Text :=
  p.elements.flatMap ParagraphElement.text

/-- The paragraph that a block is, if it is one. -/
def Block.paragraph? : Block → Option Paragraph
  | .paragraph p => some p
  | _ => none

/-- The table that a block is, if it is one. -/
def Block.table? : Block → Option Table
  | .table t => some t
  | _ => none

/-- Where a block ends. -/
def Block.stop : Block → Json
  | .paragraph p => p.stop
  | .table t => t.stop
  | .sectionBreak _ stop => stop
  | .contents _ stop _ => stop

/-- The paragraphs that stand directly in a cell. -/
def Cell.paragraphs (c : Cell) : List Paragraph :=
  c.content.filterMap Block.paragraph?

/-- The text of the paragraphs that stand directly in a cell. -/
def Cell.text (c : Cell) : Text :=
  c.paragraphs.flatMap Paragraph.text

/-- How many rows a table has. -/
def Table.rowCount (t : Table) : Nat :=
  t.rows.length

/-- How many cells the first row of a table has. -/
def Table.columnCount (t : Table) : Nat :=
  match t.rows with
  | row :: _ => row.cells.length
  | [] => 0

/-- Where a body ends; an empty one ends at 1. -/
def Body.stop (b : Body) : Json :=
  match b.content.getLast? with
  | some block => block.stop
  | none => .int 1

/-- The tables that stand directly in a body. -/
def Body.tables (b : Body) : List Table :=
  b.content.filterMap Block.table?

end DocTemplate
