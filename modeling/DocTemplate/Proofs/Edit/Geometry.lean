import DocTemplate.Edit.Geometry
import DocTemplate.Proofs.Failure

/-!
# Cells of a predicted table

Where text goes into the cells of a table that has just been inserted
(`insertionIndex_toTable_iff`): into each cell that the table has, and always in front of one of
the slots that the table itself takes (`bounds_of_insertionIndex`).
-/

namespace DocTemplate.TableGeometry

theorem itemAt?_map_range {α : Type} (f : Nat → α) (n : Int) (position : Int) :
    itemAt? ((List.range n.toNat).map f) position =
      if 0 ≤ position ∧ position < n then some (f position.toNat) else none := by
  rw [itemAt?]
  by_cases h0 : 0 ≤ position
  · rw [if_pos h0, List.getElem?_map]
    by_cases hlt : position < n
    · rw [if_pos ⟨h0, hlt⟩, List.getElem?_range (by omega)]
      rfl
    · rw [if_neg (fun h => hlt h.2), List.getElem?_eq_none (by rw [List.length_range]; omega)]
      rfl
  · rw [if_neg h0, if_neg (fun h => h0 h.1)]

theorem itemAt?_rows (g : TableGeometry) (r : Int) :
    itemAt? g.toTable.rows r = if 0 ≤ r ∧ r < g.rows then some (g.row r.toNat) else none :=
  itemAt?_map_range g.row g.rows r

theorem itemAt?_cells (g : TableGeometry) {r : Int} (hr : 0 ≤ r) (c : Int) :
    itemAt? (g.row r.toNat).cells c =
      if 0 ≤ c ∧ c < g.columns then some (emptyCell (g.cellStart r c)) else none := by
  refine (itemAt?_map_range _ g.columns c).trans ?_
  split
  · next hc => rw [Int.toNat_of_nonneg hr, Int.toNat_of_nonneg hc.1]
  · rfl

/-- A predicted table takes text in the cells that it has, two positions behind their starts. -/
theorem insertionIndex_toTable_iff (g : TableGeometry) {row column : Json} {i : Int} :
    g.toTable.insertionIndex row column = .ok i ↔
      ∃ r c, cellPlace row = .ok r ∧ cellPlace column = .ok c ∧ (0 ≤ r ∧ r < g.rows) ∧
        (0 ≤ c ∧ c < g.columns) ∧ i = g.cellStart r c + 2 := by
  simp only [Table.insertionIndex, bind_eq_ok_iff, liftM_fault_eq_ok_iff, itemAt?_rows]
  constructor
  · rintro ⟨r, hrow, h⟩
    by_cases hr : 0 ≤ r ∧ r < g.rows
    · simp only [if_pos hr, bind_eq_ok_iff, liftM_fault_eq_ok_iff, itemAt?_cells g hr.1] at h
      obtain ⟨c, hcolumn, h⟩ := h
      by_cases hc : 0 ≤ c ∧ c < g.columns
      · rw [if_pos hc] at h
        obtain rfl := Except.ok.inj h
        exact ⟨r, c, hrow, hcolumn, hr, hc, Int.add_assoc (g.cellStart r c) 1 1⟩
      · rw [if_neg hc] at h
        exact absurd h throw_ne_ok
    · rw [if_neg hr] at h
      exact absurd h throw_ne_ok
  · rintro ⟨r, c, hrow, hcolumn, hr, hc, rfl⟩
    refine ⟨r, hrow, ?_⟩
    simp only [if_pos hr, bind_eq_ok_iff, liftM_fault_eq_ok_iff, itemAt?_cells g hr.1]
    refine ⟨c, hcolumn, ?_⟩
    rw [if_pos hc]
    exact congrArg Except.ok (Int.add_assoc (g.cellStart r c) 1 1)

/-- The rows in front of one of the rows of a table, and that row, fit into the table. -/
theorem row_le_rows (g : TableGeometry) {r : Int} (hr : r < g.rows) (hc : 0 ≤ g.columns) :
    r * g.rowSize + g.rowSize ≤ g.rows * g.rowSize := by
  have hsize : 0 ≤ g.rowSize := by
    rw [rowSize]
    omega
  have := Int.mul_le_mul_of_nonneg_right (Int.add_one_le_of_lt hr) hsize
  rwa [Int.add_mul, Int.one_mul] at this

/-- A cell of a predicted table takes text in front of one of the slots of the table. -/
theorem bounds_of_insertionIndex (g : TableGeometry) {row column : Json} {i : Int}
    (h : g.toTable.insertionIndex row column = .ok i) :
    g.insertionIndex ≤ i ∧ i < g.insertionIndex + g.size := by
  obtain ⟨r, c, -, -, hr, hc, rfl⟩ := g.insertionIndex_toTable_iff.1 h
  have hrow := g.row_le_rows hr.2 (by omega)
  have hfront : 0 ≤ r * g.rowSize := Int.mul_nonneg hr.1 (by rw [rowSize]; omega)
  rw [rowSize] at hrow hfront
  simp only [cellStart, rowStart, tableStart, startAfter, size, tableStop, rowSize]
  omega

end DocTemplate.TableGeometry
