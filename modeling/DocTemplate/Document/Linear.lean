import DocTemplate.Document.Reader

/-!
# Linear texts

Flattens a document into one text in reading order: the runs of a paragraph in order, tables row
by row and cell by cell, tables inside cells and tables of contents at their place. Elements that
hold no text add nothing.

Every character can remember its origin, the document index at which it stands. Structure between
runs takes up indices that no character of the text stands for, so an index is never computed from
an offset: it is read off the origin.

Main facts: `length_origins` (one origin for each character), `originsFrom_append`.
-/

namespace DocTemplate

/-- A cell, by the start of its table and its place in it. -/
structure CellPosition where
  table : Json
  row : Nat
  column : Nat
  deriving Repr

/-- Where a character comes from: the index at which it stands, the start of its run, and the
innermost cell around it. -/
structure Origin where
  index : Int
  runStart : Number
  cell : Option CellPosition := none
  deriving Repr

/-- A run of text with the innermost cell around it. -/
structure LocatedRun where
  run : TextRun
  cell : Option CellPosition

/-- The runs of a paragraph. -/
def Paragraph.runs (p : Paragraph) : List TextRun :=
  p.elements.filterMap fun
    | .run r => some r
    | .inline _ => none

mutual

/-- The runs of a block inside `cell`. -/
def Block.runs (cell : Option CellPosition) : Block → List LocatedRun
  | .paragraph p => p.runs.map (⟨·, cell⟩)
  | .table t => t.runs
  | .sectionBreak _ _ => []
  | .contents _ _ content => runsOfBlocks cell content

/-- The runs of a table. -/
def Table.runs : Table → List LocatedRun
  | ⟨start, _, rows⟩ => runsOfRows start 0 rows

/-- The runs of the rows of a table from row `row` on. -/
def runsOfRows (table : Json) (row : Nat) : List Row → List LocatedRun
  | [] => []
  | ⟨_, _, cells⟩ :: rest => runsOfCells table row 0 cells ++ runsOfRows table (row + 1) rest

/-- The runs of the cells of a row from column `column` on. -/
def runsOfCells (table : Json) (row column : Nat) : List Cell → List LocatedRun
  | [] => []
  | ⟨_, _, content, _, _⟩ :: rest =>
    runsOfBlocks (some ⟨table, row, column⟩) content ++ runsOfCells table row (column + 1) rest

/-- The runs of blocks inside `cell`. -/
def runsOfBlocks (cell : Option CellPosition) : List Block → List LocatedRun
  | [] => []
  | block :: rest => block.runs cell ++ runsOfBlocks cell rest

end

/-- The runs of a body in reading order. -/
def Body.runs (b : Body) : List LocatedRun :=
  runsOfBlocks none b.content

/-- The origins of characters that stand in a run from `index` on. -/
def originsFrom (runStart : Number) (cell : Option CellPosition) (index : Int) : Text → List Origin
  | [] => []
  | c :: rest => ⟨index, runStart, cell⟩ :: originsFrom runStart cell (index + charUnits c) rest

/-- The origins of the characters of a run. -/
def LocatedRun.origins (r : LocatedRun) : List Origin :=
  originsFrom r.run.start r.cell r.run.start.value r.run.content

/-- The text of one fetch of a document, with the revision it was read at, null if it is not known.
There are no origins unless they were asked for. -/
structure LinearText where
  text : Text
  origins : List Origin := []
  revision : Json := .null

/-- Whether every character has its origin and there is one at all. -/
def LinearText.hasOrigins (t : LinearText) : Bool :=
  t.origins.length == t.text.length && !t.text.isEmpty

/-- The linear text of a body. -/
def Body.linear (b : Body) (revision : Json) (trackOrigins : Bool := true) : LinearText :=
  { text := b.runs.flatMap (·.run.content)
    origins := if trackOrigins then b.runs.flatMap LocatedRun.origins else []
    revision := revision }

/-- The linear text of the JSON of a document. Its own revision is used unless one is given. -/
def linearOfDocument (document revision : Json) (trackOrigins : Bool := true) :
    Except Failure LinearText := do
  let revision ← match revision with
    | .null => document.fieldD "revisionId" .null
    | r => pure r
  return (← readBody document .null).linear revision trackOrigins

/-! ## Every character has its origin -/

@[simp] theorem length_originsFrom (runStart : Number) (cell : Option CellPosition) (index : Int)
    (t : Text) : (originsFrom runStart cell index t).length = t.length := by
  induction t generalizing index with
  | nil => rfl
  | cons c t ih => simp [originsFrom, ih]

theorem originsFrom_append (runStart : Number) (cell : Option CellPosition) (index : Int)
    (s t : Text) : originsFrom runStart cell index (s ++ t) =
      originsFrom runStart cell index s ++ originsFrom runStart cell (index + s.units) t := by
  induction s generalizing index with
  | nil => simp [originsFrom]
  | cons c s ih =>
    simp only [List.cons_append, originsFrom, ih, Text.units_cons, Int.natCast_add]
    rw [Int.add_assoc]

theorem length_origins (b : Body) (revision : Json) :
    (b.linear revision).origins.length = (b.linear revision).text.length := by
  simp [Body.linear, LocatedRun.origins, List.length_flatMap]

end DocTemplate
