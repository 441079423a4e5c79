import DocTemplate.Document.Basic
import DocTemplate.Json.Arithmetic

/-!
# Table geometry

The positions of a table that has just been inserted and is still empty. Inserting a table at an
index puts there, in this order: the break of the paragraph, the start of the table, for each row
its start and for each of its cells the start of the cell and an empty paragraph, and the end of the
table. `TableGeometry.read` takes the place and the size from JSON data.

Main facts: `size_eq`, `rowStart_succ`, `cellStart_succ` (rows and cells follow each other without
a gap).
-/

namespace DocTemplate

/-- A table of this many rows and columns that is inserted at an index. -/
structure TableGeometry where
  insertionIndex : Int
  rows : Int
  columns : Int
  deriving DecidableEq, Repr

namespace TableGeometry

/-- Where a table starts that is inserted at an index: behind the break of the paragraph. -/
def startAfter (index : Int) : Int :=
  index + 1

/-- Where the table starts. -/
def tableStart (g : TableGeometry) : Int :=
  startAfter g.insertionIndex

/-- How many positions a row takes. -/
def rowSize (g : TableGeometry) : Int :=
  1 + 2 * g.columns

/-- Where the table stops. -/
def tableStop (g : TableGeometry) : Int :=
  g.tableStart + 2 + g.rows * g.rowSize

/-- How many positions are added in front of what stood at the index. -/
def size (g : TableGeometry) : Int :=
  g.tableStop - g.insertionIndex

/-- Where a row starts. -/
def rowStart (g : TableGeometry) (row : Int) : Int :=
  g.tableStart + 1 + row * g.rowSize

/-- Where a cell starts. -/
def cellStart (g : TableGeometry) (row column : Int) : Int :=
  g.rowStart row + 1 + 2 * column

/-- A cell that starts at `start` and holds an empty paragraph. -/
def emptyCell (start : Int) : Cell :=
  { start := .int start
    stop := .int (start + 2)
    content := [.paragraph
      { start := .int (start + 1)
        stop := .int (start + 2)
        elements := [.run ⟨.int (start + 1), .int (start + 2), ['\n'], .obj []⟩] }]
    rowSpan := .int 1
    columnSpan := .int 1 }

/-- A row of the table. -/
def row (g : TableGeometry) (r : Nat) : Row :=
  { start := .int (g.rowStart r)
    stop := .int (g.rowStart r + g.rowSize)
    cells := (List.range g.columns.toNat).map fun (c : Nat) => emptyCell (g.cellStart r c) }

/-- The table that the insertion makes. -/
def toTable (g : TableGeometry) : Table :=
  { start := .int g.tableStart
    stop := .int g.tableStop
    rows := (List.range g.rows.toNat).map g.row }

/-- The number that a count of rows or columns is, where it is multiplied. A sequence can be
multiplied too, but the result cannot be added to a position. -/
def factor (left : Bool) (j : Json) : Except Fault Int :=
  match j.number? with
  | some n => .ok n.value
  | none =>
    match j.kind with
    | .str => .error (.operands "+" .int .str)
    | .arr => .error (.operands "+" .int .arr)
    | kind => .error (if left then .operands "*" kind .int else .operands "*" .int kind)

/-- The geometry of a table whose place and size are JSON data. -/
def read (index rows columns : Json) : Except Fault TableGeometry := do
  let index ← index.summand
  let columns ← factor false columns
  let rows ← factor true rows
  return ⟨index.value, rows, columns⟩

@[simp] theorem read_int (index rows columns : Int) :
    read (.int index) (.int rows) (.int columns) = .ok ⟨index, rows, columns⟩ := rfl

theorem size_eq (g : TableGeometry) : g.size = 3 + g.rows * (1 + 2 * g.columns) := by
  simp only [size, tableStop, tableStart, startAfter, rowSize]
  omega

theorem rowStart_succ (g : TableGeometry) (r : Int) :
    g.rowStart (r + 1) = g.rowStart r + g.rowSize := by
  simp only [rowStart, Int.add_mul, Int.one_mul]
  omega

theorem cellStart_succ (g : TableGeometry) (r c : Int) :
    g.cellStart r (c + 1) = g.cellStart r c + 2 := by
  simp only [cellStart]
  omega

end TableGeometry

end DocTemplate
