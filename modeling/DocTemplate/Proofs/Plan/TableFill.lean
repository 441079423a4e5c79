import DocTemplate.Plan.TableFill
import DocTemplate.Proofs.Edit.Geometry
import DocTemplate.Proofs.Edit.Slots
import DocTemplate.Proofs.Failure

/-!
# What a planned table does to a document

Carrying out the edits for one marker puts the slots of a filled table in the place of the slots of
the marker and changes nothing around them (`executeEdits_planMarkerTable`).

The edits that fill the cells insert texts one after another, each at a position that the ones
before it have moved. The induction is along the cells; what carries it is that the insertions noted
so far are those that have been woven into the slots (`executeEdits_fillCells`).
-/

namespace DocTemplate

/-- The text of a cell, with the position of the slot that it is put in front of. There is none if
the text is empty. -/
def cellText (table : Table) (c : CellPlan) : Option (Int × List Slot) :=
  match table.insertionIndex c.row c.column, c.text with
  | .ok index, .text t => if t.isEmpty then none else some (index, textSlots t)
  | _, _ => none

/-- The texts of some cells, each with the position of the slot that it is put in front of. -/
def cellTexts (table : Table) (cells : List CellPlan) : List (Int × List Slot) :=
  cells.filterMap (cellText table)

/-- The slots of a table that is inserted at an index and filled by a layout: those of the empty
table, with the text of each cell in front of the slot where it is inserted. -/
def filledTable (index : Int) (layout : TableLayout) : List Slot :=
  match TableGeometry.read (.int index) layout.rowCount layout.columnCount with
  | .ok g => weave (cellTexts g.toTable layout.cells) index g.slots
  | .error _ => []

/-! ## Cells -/

theorem executeEdits_cellEdits (slots : List Slot) (c : CellPlan) (start : Int) (t : Text) :
    executeEdits slots (c.edits start t) = insertSlots slots (textSlots t) start := by
  unfold CellPlan.edits
  rw [List.cons_append, executeEdits_cons]
  show (insertSlots slots (textSlots t) start).bind _ = _
  cases insertSlots slots (textSlots t) start with
  | none => rfl
  | some slots =>
    refine executeEdits_of_still fun e he => ?_
    rcases List.mem_append.1 he with he | he
    · obtain rfl := List.mem_singleton.1 he
      rfl
    · split at he
      · obtain rfl := List.mem_singleton.1 he
        rfl
      · exact absurd he List.not_mem_nil

/-- The edit fills a table: it puts a text somewhere, sets how a cell looks or changes the table
itself. -/
inductive Edit.Fills (table : Table) : Edit → Prop
  | merge (row column rowSpan columnSpan : Json) :
      Fills table (.mergeCells table.start row column rowSpan columnSpan)
  | text (start : Int) (t : Text) : Fills table (.insertText (.int start) (.text t))
  | textStyle (start stop bold fontSize : Json) :
      Fills table (.setTextStyle start stop bold fontSize)
  | alignment (start stop alignment : Json) : Fills table (.setAlignment start stop alignment)
  | borders (rowSpan columnSpan : Json) :
      Fills table (.removeBorders table.start rowSpan columnSpan)
  | width (columns : List Json) (width : Json) :
      Fills table (.setColumnWidth table.start columns width)

/-- The edits for a cell insert its text and set how it looks. -/
theorem fills_of_mem_cellEdits (table : Table) {c : CellPlan} {start : Int} {t : Text} {e : Edit}
    (h : e ∈ c.edits start t) : e.Fills table := by
  simp only [CellPlan.edits, List.mem_append, List.mem_cons, List.not_mem_nil, or_false] at h
  rcases h with (rfl | rfl) | h
  · exact .text _ _
  · exact .textStyle _ _ _ _
  · split at h
    · obtain rfl := List.mem_singleton.1 h
      exact .alignment _ _ _
    · exact absurd h List.not_mem_nil

/-- What filling one more cell does: its text is put in front of a slot of the table, or it has
none. -/
theorem fillCells_cons {table : Table} {done all : Insertions} {c : CellPlan}
    {rest : List CellPlan} {edits : List Edit}
    (h : fillCells table done (c :: rest) = .ok (edits, all)) :
    (cellText table c = none ∧ fillCells table done rest = .ok (edits, all)) ∨
      ∃ index t edits', table.insertionIndex c.row c.column = .ok index ∧
        cellText table c = some (index, textSlots t) ∧
        fillCells table (done.record index t.units) rest = .ok (edits', all) ∧
        edits = c.edits (done.map index) t ++ edits' := by
  rw [fillCells, bind_eq_ok_iff] at h
  obtain ⟨index, hindex, h⟩ := h
  cases htext : c.text with
  | text t =>
    rw [htext] at h
    cases t with
    | nil => exact .inl ⟨by rw [cellText, hindex, htext]; rfl, h⟩
    | cons x t =>
      simp only [Entry.isGiven, List.isEmpty_cons, Bool.not_false, if_true, bind_eq_ok_iff] at h
      obtain ⟨t', ht, ⟨edits', all'⟩, hrest, h⟩ := h
      obtain rfl : x :: t = t' := Except.ok.inj ht
      obtain ⟨rfl, rfl⟩ := Prod.mk.inj (pure_eq_ok_iff.1 h)
      exact .inr ⟨index, _, edits', hindex, by rw [cellText, hindex, htext]; rfl, hrest, rfl⟩
  | data j =>
    rw [htext] at h
    split at h
    · simp only [bind_eq_ok_iff] at h
      obtain ⟨t, ht, -⟩ := h
      exact absurd ht (by simp [Entry.encodable, liftM, monadLift, MonadLift.monadLift])
    · exact .inl ⟨by rw [cellText, hindex, htext], h⟩

theorem fills_of_mem_fillCells {table : Table} {done all : Insertions} {cells : List CellPlan}
    {edits : List Edit} (h : fillCells table done cells = .ok (edits, all)) :
    ∀ e ∈ edits, e.Fills table := by
  induction cells generalizing done edits with
  | nil =>
    obtain ⟨rfl, rfl⟩ := Prod.mk.inj (Except.ok.inj h)
    exact fun e he => absurd he List.not_mem_nil
  | cons c rest ih =>
    rcases fillCells_cons h with ⟨-, hrest⟩ | ⟨index, t, edits', -, -, hrest, rfl⟩
    · exact ih hrest
    · intro e he
      rcases List.mem_append.1 he with he | he
      · exact fills_of_mem_cellEdits table he
      · exact ih hrest e he

/-- The edits that fill cells put the texts of the cells in front of their slots, if all these slots
exist. -/
theorem executeEdits_fillCells {table : Table} {base : List Slot} {cells : List CellPlan}
    (htexts : ∀ x ∈ cellTexts table cells, 0 ≤ x.1 ∧ x.1 < base.length) {done all : Insertions}
    {ins : List (Int × List Slot)} {edits : List Edit}
    (h : fillCells table done cells = .ok (edits, all)) (hd : done.Tracks ins) :
    executeEdits (weave ins 0 base) edits = some (weave (ins ++ cellTexts table cells) 0 base) ∧
      all.Tracks (ins ++ cellTexts table cells) := by
  induction cells generalizing done ins edits with
  | nil =>
    obtain ⟨rfl, rfl⟩ := Prod.mk.inj (Except.ok.inj h)
    rw [cellTexts, List.filterMap_nil, List.append_nil]
    exact ⟨rfl, hd⟩
  | cons c rest ih =>
    rcases fillCells_cons h with ⟨hnone, hrest⟩ | ⟨index, t, edits', -, hsome, hrest, rfl⟩
    · rw [cellTexts, List.filterMap_cons_none hnone] at htexts ⊢
      exact ih htexts hrest hd
    · rw [cellTexts, List.filterMap_cons_some hsome] at htexts ⊢
      obtain ⟨⟨hpos, hlt⟩, htexts⟩ := List.forall_mem_cons.1 htexts
      have hd' := hd.record hpos (textSlots t)
      rw [length_textSlots] at hd'
      obtain ⟨hexec, htracks⟩ := ih htexts hrest hd'
      rw [List.append_assoc, List.singleton_append] at hexec htracks
      refine ⟨?_, htracks⟩
      rw [executeEdits_append, executeEdits_cellEdits, insertSlots_weave hd hpos hlt,
        Option.bind_some]
      exact hexec

/-! ## Tables -/

/-- The edits that make one cell of the first row of a table if it holds a title. -/
def titleEdits (table : Table) (title : Bool) : List Edit :=
  if title then [.mergeCells table.start (.int 0) (.int 0) (.int 1) (.int 2)] else []

/-- The edits that set the widths of the columns of a table. -/
def widthEdits (table : Table) (layout : TableLayout) : List Edit :=
  layout.columnWidths.zipIdx.map fun (width, column) =>
    .setColumnWidth table.start [.int column] width

/-- The batch that fills a table in the place of a marker, taken apart. -/
theorem planTableFill_inv {table : Table} {layout : TableLayout} {start stop : Int}
    {edits : List Edit}
    (h : planTableFill table layout (some (.int start, .int stop)) = .ok edits) :
    ∃ (title : Bool) (fill : List Edit) (done : Insertions),
      fillCells table {} layout.cells = .ok (fill, done) ∧
      edits = titleEdits table title ++ fill ++
        [.removeBorders table.start layout.rowCount layout.columnCount] ++
        widthEdits table layout ++
        [.deleteRange (.int (done.map start)) (.int (done.map stop))] := by
  simp only [planTableFill, bind_eq_ok_iff, liftM_fault_eq_ok_iff] at h
  obtain ⟨title, -, ⟨fill, done⟩, hfill, e, hdelete, delete, hpure, h⟩ := h
  obtain rfl := Except.ok.inj hdelete
  obtain rfl := pure_eq_ok_iff.1 hpure
  exact ⟨title, fill, done, hfill, (pure_eq_ok_iff.1 h).symm⟩

theorem removeBorders_mem_planTableFill {table : Table} {layout : TableLayout} {start stop : Int}
    {edits : List Edit}
    (h : planTableFill table layout (some (.int start, .int stop)) = .ok edits) :
    .removeBorders table.start layout.rowCount layout.columnCount ∈ edits := by
  obtain ⟨title, fill, done, -, rfl⟩ := planTableFill_inv h
  simp only [List.mem_append, List.mem_singleton]
  exact .inl (.inl (.inr trivial))

/-- The edit deletes something. -/
def Edit.IsDeletion : Edit → Prop
  | .deleteRange .. => True
  | _ => False

theorem Edit.Fills.not_isDeletion {table : Table} {e : Edit} (h : e.Fills table) :
    ¬ e.IsDeletion := by
  cases h <;> exact id

/-- Of the edits that fill a table and delete a marker, the last one is the deletion. Of the edits
before it only those that fill the cells of the table move anything. -/
theorem planTableFill_split {table : Table} {layout : TableLayout} {start stop : Int}
    {edits : List Edit}
    (h : planTableFill table layout (some (.int start, .int stop)) = .ok edits) :
    ∃ (fill before : List Edit) (done : Insertions),
      fillCells table {} layout.cells = .ok (fill, done) ∧
      edits = before ++ [.deleteRange (.int (done.map start)) (.int (done.map stop))] ∧
      (∀ e ∈ before, e.Fills table) ∧
      ∀ slots, executeEdits slots before = executeEdits slots fill := by
  obtain ⟨title, fill, done, hfill, rfl⟩ := planTableFill_inv h
  refine ⟨fill, _, done, hfill, rfl, ?_, fun slots => ?_⟩
  · intro e he
    simp only [List.mem_append, List.mem_singleton] at he
    rcases he with ((he | he) | rfl) | he
    · cases title with
      | true =>
        obtain rfl := List.mem_singleton.1 he
        exact .merge _ _ _ _
      | false => exact absurd he List.not_mem_nil
    · exact fills_of_mem_fillCells hfill e he
    · exact .borders _ _
    · obtain ⟨w, -, rfl⟩ := List.mem_map.1 he
      exact .width _ _
  · have htitle : ∀ slots, executeEdits slots (titleEdits table title) = some slots := by
      intro slots
      cases title <;> rfl
    have hborders : ∀ slots, executeEdits slots
        [.removeBorders table.start layout.rowCount layout.columnCount] = some slots := fun _ => rfl
    have hwidths : ∀ slots, executeEdits slots (widthEdits table layout) = some slots := by
      intro slots
      refine executeEdits_of_still fun e he => ?_
      obtain ⟨w, -, rfl⟩ := List.mem_map.1 he
      rfl
    simp only [executeEdits_append, htitle, Option.bind_some]
    cases executeEdits slots fill with
    | none => rfl
    | some slots => simp only [Option.bind_some, hborders, hwidths]

theorem insertedAt_eq_nil {α : Type} {ins : List (Int × List α)} {i : Int}
    (h : ∀ x ∈ ins, x.1 ≠ i) : insertedAt ins i = [] := by
  rw [insertedAt, List.filter_eq_nil_iff.2, List.flatMap_nil]
  intro x hx
  simpa using h x hx

theorem bounds_of_mem_cellTexts {g : TableGeometry} {cells : List CellPlan}
    {x : Int × List Slot} (h : x ∈ cellTexts g.toTable cells) :
    g.insertionIndex ≤ x.1 ∧ x.1 < g.insertionIndex + g.size := by
  obtain ⟨c, -, hc⟩ := List.mem_filterMap.1 h
  rw [cellText] at hc
  split at hc
  · next index t hindex htext =>
    split at hc
    · exact absurd hc (by simp)
    · obtain rfl := Option.some.inj hc
      exact g.bounds_of_insertionIndex hindex
  · exact absurd hc (by simp)

/-- Texts that are all put in front of slots in the middle of a list are woven into the middle. -/
theorem weave_middle {α : Type} {ins : List (Int × List α)} (pre slots post : List α)
    (h : ∀ x ∈ ins, (pre.length : Int) ≤ x.1 ∧ x.1 < pre.length + slots.length) :
    weave ins 0 (pre ++ (slots ++ post)) = (pre ++ weave ins pre.length slots) ++ post := by
  rw [weave_append, weave_append, Int.zero_add, List.append_assoc]
  congr 1
  · refine weave_eq_self fun x hx => .inr ?_
    have := h x hx
    omega
  · refine congrArg _ (weave_eq_self fun x hx => .inl ?_)
    have := h x hx
    omega

theorem insertionIndex_of_read {index : Int} {rows columns : Json} {g : TableGeometry}
    (h : TableGeometry.read (.int index) rows columns = .ok g) : g.insertionIndex = index := by
  simp only [TableGeometry.read, bind_eq_ok_iff] at h
  obtain ⟨n, hn, columns', -, rows', -, h⟩ := h
  obtain rfl := Except.ok.inj hn
  rw [← pure_eq_ok_iff.1 h]
  rfl

/-- Filling a table that was inserted weaves the texts into its slots and leaves what stands around
it as it is. What stands behind the table is moved by as much as the table has grown. -/
theorem executeEdits_fillInserted {pre rest : List Slot} {g : TableGeometry}
    (hindex : g.insertionIndex = pre.length) (hsize : 0 ≤ g.size) {cells : List CellPlan}
    {texts : List Edit} {done : Insertions}
    (h : fillCells g.toTable {} cells = .ok (texts, done)) :
    executeEdits (pre ++ (g.slots ++ rest)) texts =
        some ((pre ++ weave (cellTexts g.toTable cells) pre.length g.slots) ++ rest) ∧
      ∀ behind : List Slot, done.map (pre ++ (g.slots ++ behind)).length =
        (pre ++ weave (cellTexts g.toTable cells) pre.length g.slots).length + behind.length := by
  have hslots : (g.slots.length : Int) = g.size := by
    rw [g.length_slots, Int.toNat_of_nonneg hsize]
  have hins : ∀ x ∈ cellTexts g.toTable cells,
      (pre.length : Int) ≤ x.1 ∧ x.1 < pre.length + g.slots.length := by
    intro x hx
    have := bounds_of_mem_cellTexts hx
    omega
  have htexts : ∀ x ∈ cellTexts g.toTable cells,
      0 ≤ x.1 ∧ x.1 < (pre ++ (g.slots ++ rest)).length := by
    intro x hx
    have := hins x hx
    simp only [List.length_append]
    omega
  obtain ⟨hexec, htracks⟩ := executeEdits_fillCells htexts h Insertions.tracks_nil
  rw [weave_eq_self (by simp), List.nil_append, weave_middle _ _ _ hins] at hexec
  rw [List.nil_append] at htracks
  refine ⟨hexec, fun behind => ?_⟩
  have hnone : insertedAt (cellTexts g.toTable cells) (pre ++ (g.slots ++ behind)).length = [] := by
    refine insertedAt_eq_nil fun x hx => ?_
    have := hins x hx
    simp only [List.length_append]
    omega
  rw [htracks, hnone, List.append_nil, weave_middle _ _ _ hins, List.length_append,
    Int.natCast_add]

/-- The edits for a marker insert a table and fill the one that is predicted. The marker is pushed
back by the size of the table. -/
theorem planMarkerTable_inv {start stop : Int} {layout : TableLayout} {edits : List Edit}
    (h : planMarkerTable (.int start) (.int stop) layout = .ok edits) :
    ∃ g fill, TableGeometry.read (.int start) layout.rowCount layout.columnCount = .ok g ∧
      planTableFill g.toTable layout (some (.int (start + g.size), .int (stop + g.size))) =
        .ok fill ∧
      edits = .insertTable (.int start) layout.rowCount layout.columnCount :: fill := by
  simp only [planMarkerTable, bind_eq_ok_iff, liftM_fault_eq_ok_iff] at h
  obtain ⟨g, hg, stop', hstop, fill, hfill, h⟩ := h
  obtain rfl : stop + g.size = stop' := Except.ok.inj hstop
  rw [insertionIndex_of_read hg] at hfill
  exact ⟨g, fill, hg, hfill, (pure_eq_ok_iff.1 h).symm⟩

/-- The edits for a marker put a filled table in front of its slots, without deleting anything, and
then delete these slots. -/
theorem planMarkerTable_split {pre marker post : List Slot} {layout : TableLayout}
    {edits : List Edit} {g : TableGeometry}
    (hg : TableGeometry.read (.int pre.length) layout.rowCount layout.columnCount = .ok g)
    (hsize : 0 ≤ g.size) (hmarker : marker ≠ [])
    (h : planMarkerTable (.int pre.length) (.int (pre.length + marker.length)) layout = .ok edits) :
    ∃ (before : List Edit) (front : List Slot),
      front = pre ++ filledTable pre.length layout ∧
      edits = before ++
        [.deleteRange (.int front.length) (.int (front.length + marker.length))] ∧
      (∀ e ∈ before, ¬ e.IsDeletion) ∧
      executeEdits (pre ++ (marker ++ post)) before = some (front ++ (marker ++ post)) := by
  have hindex := insertionIndex_of_read hg
  obtain ⟨g', fill, hg', hfill, rfl⟩ := planMarkerTable_inv h
  obtain rfl := Except.ok.inj (hg.symm.trans hg')
  obtain ⟨texts, before, done, hcells, rfl, hfills, hbefore⟩ := planTableFill_split hfill
  obtain ⟨hexec, hmoved⟩ :=
    @executeEdits_fillInserted pre (marker ++ post) g hindex hsize _ _ _ hcells
  have hslots : (g.slots.length : Int) = g.size := by
    rw [g.length_slots, Int.toNat_of_nonneg hsize]
  -- the marker stands behind the table by now
  have hstart : (pre.length : Int) + g.size = (pre ++ (g.slots ++ [])).length := by
    simp only [List.length_append, List.length_nil]
    omega
  have hend : (pre.length + marker.length : Int) + g.size =
      (pre ++ (g.slots ++ marker)).length := by
    simp only [List.length_append]
    omega
  have hinsert : (Edit.insertTable (.int pre.length) layout.rowCount layout.columnCount).onSlots
      (pre ++ (marker ++ post)) = some (pre ++ (g.slots ++ (marker ++ post))) := by
    simp only [Edit.onSlots, hg, hindex]
    rw [insertSlots_length pre g.slots (by simp [hmarker]), List.append_assoc]
  have hfilled : filledTable pre.length layout =
      weave (cellTexts g.toTable layout.cells) pre.length g.slots := by
    rw [filledTable, hg]
  refine ⟨.insertTable (.int pre.length) layout.rowCount layout.columnCount :: before, _, rfl,
    ?_, ?_, ?_⟩
  · rw [hfilled, hstart, hmoved, List.length_nil, Int.natCast_zero,
      Int.add_zero, hend, hmoved, List.cons_append]
  · exact List.forall_mem_cons.2 ⟨id, fun e he => (hfills e he).not_isDeletion⟩
  · rw [executeEdits_cons, hinsert, Option.bind_some, hbefore, hexec, hfilled]

/-- The edits for a marker put a filled table in the place of its slots and leave the slots before
and behind it as they are. -/
theorem executeEdits_planMarkerTable {pre marker post : List Slot} {layout : TableLayout}
    {edits : List Edit} {g : TableGeometry}
    (hg : TableGeometry.read (.int pre.length) layout.rowCount layout.columnCount = .ok g)
    (hsize : 0 ≤ g.size) (hmarker : marker ≠ [])
    (h : planMarkerTable (.int pre.length) (.int (pre.length + marker.length)) layout = .ok edits) :
    executeEdits (pre ++ (marker ++ post)) edits =
      some (pre ++ (filledTable pre.length layout ++ post)) := by
  obtain ⟨before, front, rfl, rfl, -, hexec⟩ :=
    @planMarkerTable_split pre marker post _ _ _ hg hsize hmarker h
  rw [executeEdits_append, hexec, Option.bind_some]
  refine (executeEdits_cons _ _ _).trans ((Option.bind_fun_some _).trans ?_)
  exact (removeSlots_length _ _ _).trans (by rw [List.append_assoc])

/-! ## Planning succeeds -/

/-- A cell that is filled with a text and stands in a table of this size. -/
structure CellPlan.FitsInto (c : CellPlan) (rows columns : Int) : Prop where
  row : ∃ r, c.row = .int r ∧ 0 ≤ r ∧ r < rows
  column : ∃ k, c.column = .int k ∧ 0 ≤ k ∧ k < columns
  text : ∃ t, c.text = .text t
  columnSpan : ∃ k, c.columnSpan = .int k

theorem exists_spansFirstRow {cells : List CellPlan}
    (h : ∀ c ∈ cells, ∃ k, c.columnSpan = .int k) : ∃ title, spansFirstRow cells = .ok title := by
  induction cells with
  | nil => exact ⟨_, rfl⟩
  | cons c rest ih =>
    obtain ⟨title, htitle⟩ := ih fun c' hc' => h c' (List.mem_cons_of_mem _ hc')
    obtain ⟨k, hk⟩ := h c List.mem_cons_self
    rw [spansFirstRow]
    split
    · rw [hk, Json.greater_int]
      by_cases hspan : k > 1
      · exact ⟨true, by simp [hspan, bind, Except.bind, pure, Except.pure]⟩
      · exact ⟨title, by simp [hspan, bind, Except.bind, htitle]⟩
    · exact ⟨title, htitle⟩

theorem exists_fillCells {g : TableGeometry} {cells : List CellPlan} (done : Insertions)
    (h : ∀ c ∈ cells, c.FitsInto g.rows g.columns) :
    ∃ filled, fillCells g.toTable done cells = .ok filled := by
  induction cells generalizing done with
  | nil => exact ⟨_, rfl⟩
  | cons c rest ih =>
    obtain ⟨⟨r, hrow, hr⟩, ⟨k, hcolumn, hk⟩, ⟨t, ht⟩, -⟩ := h c List.mem_cons_self
    have hindex : g.toTable.insertionIndex c.row c.column = .ok (g.cellStart r k + 2) := by
      rw [hrow, hcolumn]
      exact g.insertionIndex_toTable_iff.2 ⟨r, k, rfl, rfl, hr, hk, rfl⟩
    have hrest := fun done => ih done fun c' hc' => h c' (List.mem_cons_of_mem _ hc')
    rw [fillCells, hindex, ht]
    by_cases hgiven : (Entry.text t).isGiven
    · obtain ⟨⟨edits, all⟩, hfilled⟩ := hrest (done.record (g.cellStart r k + 2) t.units)
      refine ⟨(c.edits (done.map (g.cellStart r k + 2)) t ++ edits, all), ?_⟩
      simp only [bind_eq_ok_iff]
      exact ⟨_, rfl, by rw [if_pos hgiven]; exact bind_eq_ok_iff.2 ⟨t, rfl, by rw [hfilled]; rfl⟩⟩
    · obtain ⟨filled, hfilled⟩ := hrest done
      exact ⟨filled, bind_eq_ok_iff.2 ⟨_, rfl, by rw [if_neg hgiven, hfilled]⟩⟩

theorem exists_planMarkerTable {layout : TableLayout} {start : Int} {g : TableGeometry}
    (hg : TableGeometry.read (.int start) layout.rowCount layout.columnCount = .ok g) (stop : Int)
    (h : ∀ c ∈ layout.cells, c.FitsInto g.rows g.columns) :
    ∃ edits, planMarkerTable (.int start) (.int stop) layout = .ok edits := by
  obtain ⟨title, htitle⟩ := exists_spansFirstRow fun c hc => (h c hc).columnSpan
  obtain ⟨⟨fill, done⟩, hfill⟩ := exists_fillCells {} h
  obtain ⟨edits, hedits⟩ : ∃ edits, planTableFill g.toTable layout
      (some (.int (g.insertionIndex + g.size), .int (stop + g.size))) = .ok edits := by
    simp only [planTableFill, bind_eq_ok_iff, liftM_fault_eq_ok_iff]
    exact ⟨_, title, htitle, (fill, done), hfill, _, rfl, _, rfl, rfl⟩
  simp only [planMarkerTable, bind_eq_ok_iff, liftM_fault_eq_ok_iff]
  exact ⟨_, g, hg, stop + g.size, rfl, edits, hedits, rfl⟩

end DocTemplate
