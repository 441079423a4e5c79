import DocTemplate.Proofs.Edit.Geometry

/-!
# The paragraph that takes the text of a cell

The text of a cell is inserted one position behind the start of the cell's first paragraph. That is
a position of the paragraph only if the paragraph takes two positions or more
(`takesTextInside_iff`).

In a table that has just been inserted every paragraph is empty and takes one position. So there the
text of no cell goes into its paragraph: it goes right behind the cell, in front of the next cell,
the next row or the end of the table (`textBehind_toTable`).
-/

namespace DocTemplate

/-- The cell of a table in a row and a column. -/
def Table.cell? (t : Table) (row column : Int) : Option Cell :=
  (itemAt? t.rows row).bind fun r => itemAt? r.cells column

/-- An index is one of the positions that a paragraph takes, from its start up to its stop. -/
def Paragraph.Covers (p : Paragraph) (index : Int) : Prop :=
  ∃ start stop, p.start = .int start ∧ p.stop = .int stop ∧ start ≤ index ∧ index < stop

/-- The text of a cell is inserted in front of a position of the cell's first paragraph. -/
def Table.TakesTextInside (t : Table) (row column : Int) : Prop :=
  ∃ c p rest index, t.cell? row column = some c ∧ c.paragraphs = p :: rest ∧
    t.insertionIndex (.int row) (.int column) = .ok index ∧ p.Covers index

/-! ## Cells of any table -/

section Cell

variable {t : Table} {row column start stop : Int} {c : Cell} {p : Paragraph}
  {rest : List Paragraph}

theorem Table.cell?_eq_some_iff :
    t.cell? row column = some c ↔
      ∃ r, itemAt? t.rows row = some r ∧ itemAt? r.cells column = some c :=
  Option.bind_eq_some_iff

/-- Text goes into a cell one position behind the start of its first paragraph. -/
theorem Table.insertionIndex_of_paragraph (hc : t.cell? row column = some c)
    (hp : c.paragraphs = p :: rest) (hstart : p.start = .int start) :
    t.insertionIndex (.int row) (.int column) = .ok (start + 1) := by
  obtain ⟨r, hr, hcell⟩ := cell?_eq_some_iff.1 hc
  simp only [insertionIndex, bind_eq_ok_iff, liftM_fault_eq_ok_iff]
  refine ⟨row, rfl, ?_⟩
  simp only [hr, bind_eq_ok_iff, liftM_fault_eq_ok_iff]
  refine ⟨column, rfl, ?_⟩
  simp only [hcell, hp, hstart]
  rfl

theorem Paragraph.covers_iff (hstart : p.start = .int start) (hstop : p.stop = .int stop)
    {index : Int} : p.Covers index ↔ start ≤ index ∧ index < stop := by
  constructor
  · rintro ⟨start', stop', hstart', hstop', h⟩
    obtain rfl := Json.int.inj (hstart.symm.trans hstart')
    obtain rfl := Json.int.inj (hstop.symm.trans hstop')
    exact h
  · exact fun h => ⟨start, stop, hstart, hstop, h⟩

/-- The text of a cell goes into the first paragraph of the cell if and only if the paragraph takes
two positions or more. -/
theorem Table.takesTextInside_iff (hc : t.cell? row column = some c)
    (hp : c.paragraphs = p :: rest) (hstart : p.start = .int start)
    (hstop : p.stop = .int stop) : t.TakesTextInside row column ↔ start + 2 ≤ stop := by
  have hindex := insertionIndex_of_paragraph hc hp hstart
  constructor
  · rintro ⟨c', p', rest', index, hc', hp', hindex', hcovers⟩
    obtain rfl := Option.some.inj (hc.symm.trans hc')
    obtain ⟨rfl, -⟩ := List.cons.inj (hp.symm.trans hp')
    obtain rfl := Except.ok.inj (hindex.symm.trans hindex')
    have := (Paragraph.covers_iff hstart hstop).1 hcovers
    omega
  · intro h
    exact ⟨c, p, rest, start + 1, hc, hp, hindex,
      (Paragraph.covers_iff hstart hstop).2 ⟨by omega, by omega⟩⟩

end Cell

/-! ## Cells of a table that has just been inserted -/

namespace TableGeometry

/-- The table has a cell in this row and this column. -/
def HasCell (g : TableGeometry) (row column : Int) : Prop :=
  (0 ≤ row ∧ row < g.rows) ∧ 0 ≤ column ∧ column < g.columns

instance (g : TableGeometry) (row column : Int) : Decidable (g.HasCell row column) :=
  inferInstanceAs (Decidable ((0 ≤ row ∧ row < g.rows) ∧ 0 ≤ column ∧ column < g.columns))

/-- What follows a cell: the next cell of its row, the next row, or the end of the table. -/
def behindCell (g : TableGeometry) (row column : Int) : Int :=
  if column + 1 < g.columns then g.cellStart row (column + 1)
  else if row + 1 < g.rows then g.rowStart (row + 1)
  else g.tableStop - 1

variable {g : TableGeometry} {row column : Int}

theorem HasCell.cell?_eq (h : g.HasCell row column) :
    g.toTable.cell? row column = some (emptyCell (g.cellStart row column)) := by
  obtain ⟨hrow, hcolumn⟩ := h
  refine Table.cell?_eq_some_iff.2 ⟨g.row row.toNat, ?_, ?_⟩
  · rw [itemAt?_rows, if_pos hrow]
  · rw [itemAt?_cells g hrow.1, if_pos hcolumn]

/-- The cells and rows of a table follow each other, and its end follows the last one. -/
theorem HasCell.behindCell_eq (h : g.HasCell row column) :
    g.behindCell row column = g.cellStart row column + 2 := by
  obtain ⟨⟨-, hrow⟩, -, hcolumn⟩ := h
  rw [behindCell]
  split
  · exact g.cellStart_succ row column
  · have hlast : column + 1 = g.columns := by omega
    split
    · rw [g.rowStart_succ, rowSize, cellStart]
      omega
    · have hend : g.rows = row + 1 := by omega
      have hsucc := g.rowStart_succ row
      rw [rowStart, rowSize] at hsucc
      simp only [tableStop, cellStart, rowSize, hend]
      omega

/-- The paragraph of a cell takes one position, so no text goes into it. -/
theorem HasCell.not_takesTextInside (h : g.HasCell row column) :
    ¬ g.toTable.TakesTextInside row column := by
  rw [Table.takesTextInside_iff h.cell?_eq rfl rfl rfl]
  omega

/-- **The text of a cell goes behind the cell**: in a table that has just been inserted, the text of
every cell is inserted in front of what follows the cell. There the only paragraph of the cell has
ended, and so has the cell. Hence the texts go into the paragraphs of their cells only if the table
has no cells. -/
theorem textBehind_toTable (g : TableGeometry) :
    (∀ row column, g.HasCell row column →
      g.toTable.insertionIndex (.int row) (.int column) = .ok (g.behindCell row column) ∧
        (∃ c p, g.toTable.cell? row column = some c ∧ c.paragraphs = [p] ∧
          p.stop = .int (g.behindCell row column) ∧ c.stop = .int (g.behindCell row column)) ∧
        ¬ g.toTable.TakesTextInside row column) ∧
    ((∀ row column, g.HasCell row column → g.toTable.TakesTextInside row column) ↔
      g.rows < 1 ∨ g.columns < 1) := by
  constructor
  · intro row column h
    have hindex := Table.insertionIndex_of_paragraph h.cell?_eq rfl rfl
    rw [h.behindCell_eq]
    rw [Int.add_assoc] at hindex
    exact ⟨hindex, ⟨_, _, h.cell?_eq, rfl, rfl, rfl⟩, h.not_takesTextInside⟩
  · constructor
    · intro h
      by_contra hsize
      have hcell : g.HasCell 0 0 := ⟨⟨by omega, by omega⟩, by omega, by omega⟩
      exact hcell.not_takesTextInside (h 0 0 hcell)
    · rintro hsize row column ⟨hrow, hcolumn⟩
      omega

/-- In a table of two rows and two columns, the text of the last cell of the first row goes in front
of the second row. -/
theorem textBehind_firstRow :
    HasCell ⟨7, 2, 2⟩ 0 1 ∧
      (TableGeometry.toTable ⟨7, 2, 2⟩).insertionIndex (.int 0) (.int 1) =
        .ok (rowStart ⟨7, 2, 2⟩ 1) ∧
      ¬ (TableGeometry.toTable ⟨7, 2, 2⟩).TakesTextInside 0 1 := by
  have hcell : HasCell ⟨7, 2, 2⟩ 0 1 := by decide
  obtain ⟨hindex, -, hinside⟩ := (textBehind_toTable ⟨7, 2, 2⟩).1 0 1 hcell
  exact ⟨hcell, hindex, hinside⟩

/-- The text of the only cell of a table does not go into its paragraph. -/
theorem not_takesTextInside_oneCell :
    HasCell ⟨7, 1, 1⟩ 0 0 ∧ ¬ (TableGeometry.toTable ⟨7, 1, 1⟩).TakesTextInside 0 0 := by
  refine ⟨by decide, ?_⟩
  rintro ⟨c, p, rest, index, hc, hp, hindex, start, stop, hstart, hstop, hle, hlt⟩
  obtain rfl := Option.some.inj hc
  obtain ⟨rfl, -⟩ := List.cons.inj hp
  obtain rfl := Except.ok.inj hindex
  obtain rfl := Json.int.inj hstop
  exact absurd hlt (by decide)

end TableGeometry

end DocTemplate
