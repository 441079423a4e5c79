import DocTemplate.Edit.Basic

/-!
# How a predicted table takes up its positions

A table that has just been inserted takes up its positions without a gap: the break of the
paragraph, the start of the table, the rows one behind the other, and the end of the table; a row
takes a position for itself and then those of its cells, and a cell one for itself and one for the
newline of its paragraph (`nests_toTable`).

The ranges of the rows, and those of the cells of a row, are built from the closed forms of where
each starts. They tile because each closed form, taken one further, is where the range before it
stops (`tiles_map_range` with `rowStart_succ` and `cellStart_succ`).
-/

namespace DocTemplate

/-! ## Ranges that follow each other -/

/-- The ranges follow each other without a gap: the first one starts at `start`, each one starts
where the one before it stops, and the last one stops at `stop`. None of them is empty. -/
def Tiles : (start : Int) → List (Json × Json) → (stop : Int) → Prop
  | start, [], stop => start = stop
  | start, range :: rest, stop =>
    ∃ middle, range = (.int start, .int middle) ∧ start < middle ∧ Tiles middle rest stop

theorem tiles_append {start middle stop : Int} {a b : List (Json × Json)}
    (ha : Tiles start a middle) (hb : Tiles middle b stop) : Tiles start (a ++ b) stop := by
  induction a generalizing start with
  | nil =>
    obtain rfl : start = middle := ha
    exact hb
  | cons range rest ih =>
    obtain ⟨next, hrange, hlt, hrest⟩ := ha
    exact ⟨next, hrange, hlt, ih hrest⟩

/-- Ranges tile if each of them goes up to where the next one starts. -/
theorem tiles_map_range {f : Nat → Int} (hf : ∀ k, f k < f (k + 1)) (n : Nat) :
    Tiles (f 0) ((List.range n).map fun k => (.int (f k), .int (f (k + 1)))) (f n) := by
  induction n with
  | zero => rfl
  | succ n ih =>
    rw [List.range_succ, List.map_append]
    exact tiles_append ih ⟨f (n + 1), rfl, hf n, rfl⟩

/-! ## Tables without a gap -/

/-- The range of a row. -/
def Row.range (r : Row) : Json × Json :=
  (r.start, r.stop)

/-- The range of a cell. -/
def Cell.range (c : Cell) : Json × Json :=
  (c.start, c.stop)

/-- The cell takes the position `start` for itself and the next one for a paragraph that is nothing
but a newline. -/
structure Cell.HoldsNewline (c : Cell) (start : Int) : Prop where
  range : c.range = (.int start, .int (start + 2))
  content : ∃ p r, c.content = [.paragraph p] ∧
    (p.start = .int (start + 1) ∧ p.stop = .int (start + 2)) ∧
    p.elements = [.run r] ∧ r.content = ['\n'] ∧
    (r.start = .int (start + 1) ∧ r.stop = .int (start + 2))

/-- The row takes a position for itself, and its cells take up all the others. -/
structure Row.Nests (r : Row) : Prop where
  cells : ∃ start stop, r.range = (.int start, .int stop) ∧
    Tiles (start + 1) (r.cells.map Cell.range) stop
  newlines : ∀ c ∈ r.cells, ∃ start, c.HoldsNewline start

/-- The table takes up `size` positions from `index` on: the first one is the break of the
paragraph, the second one the start of the table and the last one its end, and its rows take up all
the others. -/
structure Table.Nests (t : Table) (index size : Int) : Prop where
  start : t.start = .int (index + 1)
  stop : t.stop = .int (index + size)
  rows : Tiles (index + 2) (t.rows.map Row.range) (index + size - 1)
  cells : ∀ r ∈ t.rows, r.Nests

/-! ## The predicted table -/

namespace TableGeometry

theorem holdsNewline_emptyCell (start : Int) : (emptyCell start).HoldsNewline start where
  range := rfl
  content := ⟨_, _, rfl, ⟨rfl, rfl⟩, rfl, rfl, rfl, rfl⟩

theorem range_row (g : TableGeometry) (r : Nat) :
    (g.row r).range = (.int (g.rowStart r), .int (g.rowStart (r + 1))) := by
  rw [g.rowStart_succ]
  rfl

theorem range_emptyCell (g : TableGeometry) (r c : Int) :
    (emptyCell (g.cellStart r c)).range =
      (.int (g.cellStart r c), .int (g.cellStart r (c + 1))) := by
  rw [g.cellStart_succ]
  rfl

/-- The rows start behind the start of the table. -/
theorem rowStart_zero (g : TableGeometry) : g.rowStart 0 = g.insertionIndex + 2 := by
  rw [rowStart, tableStart, startAfter]
  omega

/-- The cells of a row start behind the position that the row takes for itself. -/
theorem cellStart_zero (g : TableGeometry) (r : Int) : g.cellStart r 0 = g.rowStart r + 1 := by
  rw [cellStart]
  omega

/-- Behind the cells of a row the next row starts. -/
theorem cellStart_columns (g : TableGeometry) (r : Int) :
    g.cellStart r g.columns = g.rowStart (r + 1) := by
  rw [g.rowStart_succ, cellStart, rowSize]
  omega

/-- Behind the rows of a table it ends. -/
theorem rowStart_rows (g : TableGeometry) : g.rowStart g.rows = g.insertionIndex + g.size - 1 := by
  simp only [rowStart, size, tableStop]
  omega

variable {g : TableGeometry}

theorem map_range_cells (g : TableGeometry) (r : Nat) :
    (g.row r).cells.map Cell.range = (List.range g.columns.toNat).map fun c =>
      (.int (g.cellStart r c), .int (g.cellStart r (c + 1 : Nat))) := by
  rw [row, List.map_map]
  exact List.map_congr_left fun c _ => g.range_emptyCell r c

theorem map_range_rows (g : TableGeometry) :
    g.toTable.rows.map Row.range = (List.range g.rows.toNat).map fun r =>
      (.int (g.rowStart r), .int (g.rowStart (r + 1 : Nat))) := by
  rw [toTable, List.map_map]
  exact List.map_congr_left fun r _ => g.range_row r

theorem tiles_cells (hcolumns : 0 ≤ g.columns) (r : Nat) :
    Tiles (g.rowStart r + 1) ((g.row r).cells.map Cell.range) (g.rowStart (r + 1)) := by
  have hlt : ∀ c : Nat, g.cellStart r c < g.cellStart r (c + 1 : Nat) := by
    intro c
    rw [Int.natCast_succ, cellStart_succ]
    omega
  have htiles := tiles_map_range hlt g.columns.toNat
  rw [Int.natCast_zero, cellStart_zero, Int.toNat_of_nonneg hcolumns, cellStart_columns,
    ← map_range_cells] at htiles
  exact htiles

theorem tiles_rows (hrows : 0 ≤ g.rows) (hcolumns : 0 ≤ g.columns) :
    Tiles (g.insertionIndex + 2) (g.toTable.rows.map Row.range)
      (g.insertionIndex + g.size - 1) := by
  have hlt : ∀ r : Nat, g.rowStart r < g.rowStart (r + 1 : Nat) := by
    intro r
    rw [Int.natCast_succ, rowStart_succ, rowSize]
    omega
  have htiles := tiles_map_range hlt g.rows.toNat
  rw [Int.natCast_zero, rowStart_zero, Int.toNat_of_nonneg hrows, rowStart_rows,
    ← map_range_rows] at htiles
  exact htiles

theorem nests_row (hcolumns : 0 ≤ g.columns) (r : Nat) : (g.row r).Nests where
  cells := ⟨_, _, g.range_row r, tiles_cells hcolumns r⟩
  newlines := by
    intro c hc
    obtain ⟨k, -, rfl⟩ := List.mem_map.1 hc
    exact ⟨_, holdsNewline_emptyCell _⟩

theorem nests_table (hrows : 0 ≤ g.rows) (hcolumns : 0 ≤ g.columns) :
    g.toTable.Nests g.insertionIndex g.size where
  start := rfl
  stop := by
    refine congrArg Json.int ?_
    rw [size]
    omega
  rows := tiles_rows hrows hcolumns
  cells := by
    intro r hr
    obtain ⟨k, -, rfl⟩ := List.mem_map.1 hr
    exact nests_row hcolumns k

/-- **A predicted table takes up its positions without a gap**, as many as inserting it moves what
stands behind. Its rows and cells are as many as asked for, and start where the closed forms say. -/
theorem nests_toTable (index : Int) (rows columns : Nat) :
    let g : TableGeometry := ⟨index, rows, columns⟩
    g.toTable.Nests index g.size ∧
      g.toTable.rows.map (·.start) = (List.range rows).map (fun r => .int (g.rowStart r)) ∧
      g.toTable.rows.map (fun row => row.cells.map (·.start)) =
        (List.range rows).map (fun r =>
          (List.range columns).map fun c => .int (g.cellStart r c)) ∧
      g.size = 3 + rows * (1 + 2 * columns) ∧
      (Edit.insertTable (.int index) (.int rows) (.int columns)).shift = .ok g.size := by
  intro g
  refine ⟨nests_table (Int.natCast_nonneg rows) (Int.natCast_nonneg columns), ?_, ?_, g.size_eq,
    rfl⟩
  · rw [toTable, List.map_map]
    rfl
  · rw [toTable, List.map_map]
    refine List.map_congr_left fun r _ => ?_
    show (g.row r).cells.map (·.start) = _
    rw [row, List.map_map]
    rfl

end TableGeometry

end DocTemplate
