import DocTemplate.Plan.Substitution
import DocTemplate.Proofs.Edit.Requests
import DocTemplate.Proofs.Plan.SectionTables

/-!
# Batches as they are sent

Whatever is planned consists of definite edits: the planners put texts where texts are expected, and
a change of style sets at least whether a text is bold, or its size. So every planned batch is sent
without loss (`sentAs_plannedBatch`).

What can go wrong with a batch is an entry that is no text or a cell without style. Each planner has
one lemma that says why none gets into its batches.
-/

namespace DocTemplate

/-! ## Substitutions -/

/-- A value is null or a text. -/
def Entry.IsValue (e : Entry) : Prop :=
  e = .data .null ∨ ∃ t, e = .text t

theorem Entry.IsValue.exists_orEmpty {e : Entry} (h : e.IsValue) : ∃ t, e.orEmpty = .text t := by
  rcases h with rfl | ⟨t, rfl⟩
  · exact ⟨[], rfl⟩
  · cases t <;> exact ⟨_, rfl⟩

theorem isDefinite_of_mem_blockEdits {rendered : Text} {seen : List Text}
    {blocks : List AssetBlock} : ∀ e ∈ blockEdits rendered seen blocks, e.IsDefinite := by
  induction blocks generalizing seen with
  | nil => exact List.forall_mem_nil _
  | cons b rest ih =>
    rw [blockEdits]
    split
    · exact ih
    · exact List.forall_mem_cons.2 ⟨⟨⟨_, rfl⟩, ⟨_, rfl⟩⟩, ih⟩

theorem isDefinite_of_mem_planBlocks {sections : List AssetSection} {scan : TemplateScan}
    {minPadding : Json} {edits : List Edit} (h : planBlocks sections scan minPadding = .ok edits) :
    ∀ e ∈ edits, e.IsDefinite := by
  rw [planBlocks] at h
  split at h
  · obtain rfl := Except.ok.inj h
    exact List.forall_mem_nil _
  · obtain ⟨rendered, -, rfl⟩ := map_eq_ok_iff.1 h
    exact isDefinite_of_mem_blockEdits

theorem isDefinite_of_mem_planValues {values : OrderedMap Entry} (scan : TemplateScan)
    (hvalues : ∀ e ∈ values.entries, e.2.IsValue) : ∀ e ∈ planValues values scan, e.IsDefinite := by
  intro e he
  obtain ⟨⟨name, value⟩, hvalue, he⟩ := List.mem_flatMap.1 he
  obtain ⟨spelling, -, rfl⟩ := List.mem_map.1 he
  exact ⟨⟨_, rfl⟩, (hvalues _ hvalue).exists_orEmpty⟩

/-! ## Tables -/

/-- A cell says whether its text is bold, or gives its size. -/
def CellPlan.IsStyled (c : CellPlan) : Prop :=
  c.bold ≠ .null ∨ c.fontSize ≠ .null

theorem isDefinite_of_mem_cellEdits {c : CellPlan} (hc : c.IsStyled) (start : Int) (t : Text) :
    ∀ e ∈ c.edits start t, e.IsDefinite := by
  intro e he
  simp only [CellPlan.edits, List.mem_append, List.mem_cons, List.not_mem_nil, or_false] at he
  rcases he with (rfl | rfl) | he
  · exact ⟨t, rfl⟩
  · exact hc
  · split at he
    · obtain rfl := List.mem_singleton.1 he
      exact trivial
    · exact absurd he List.not_mem_nil

theorem isDefinite_of_mem_fillCells {table : Table} {done all : Insertions} {cells : List CellPlan}
    {edits : List Edit} (hcells : ∀ c ∈ cells, c.IsStyled)
    (h : fillCells table done cells = .ok (edits, all)) : ∀ e ∈ edits, e.IsDefinite := by
  induction cells generalizing done edits with
  | nil =>
    obtain ⟨rfl, rfl⟩ := Prod.mk.inj (Except.ok.inj h)
    exact List.forall_mem_nil _
  | cons c rest ih =>
    obtain ⟨hc, hrest⟩ := List.forall_mem_cons.1 hcells
    rcases fillCells_cons h with ⟨-, hfill⟩ | ⟨index, t, edits', -, -, hfill, rfl⟩
    · exact ih hrest hfill
    · exact List.forall_mem_append.2 ⟨isDefinite_of_mem_cellEdits hc _ t, ih hrest hfill⟩

theorem isDefinite_of_deleteMarker {done : Insertions} {start stop : Json} {e : Edit}
    (h : deleteMarker done start stop = .ok e) : e.IsDefinite := by
  simp only [deleteMarker, bind_eq_ok_iff, pure_eq_ok_iff] at h
  obtain ⟨start', -, stop', -, rfl⟩ := h
  exact trivial

/-- The batch that fills a table, with or without a marker to be deleted at the end. -/
theorem planTableFill_parts {table : Table} {layout : TableLayout} {marker : Option (Json × Json)}
    {edits : List Edit} (h : planTableFill table layout marker = .ok edits) :
    ∃ (title : Bool) (fill : List Edit) (done : Insertions) (delete : List Edit),
      fillCells table {} layout.cells = .ok (fill, done) ∧ (∀ e ∈ delete, e.IsDefinite) ∧
      edits = titleEdits table title ++ fill ++
        [.removeBorders table.start layout.rowCount layout.columnCount] ++
        widthEdits table layout ++ delete := by
  simp only [planTableFill, bind_eq_ok_iff] at h
  obtain ⟨title, -, ⟨fill, done⟩, hfill, h⟩ := h
  cases marker with
  | none =>
    refine ⟨title, fill, done, [], hfill, List.forall_mem_nil _, ?_⟩
    exact (pure_eq_ok_iff.1 h).symm
  | some marker =>
    simp only [bind_eq_ok_iff, liftM_fault_eq_ok_iff] at h
    obtain ⟨e, he, delete, hpure, h⟩ := h
    obtain rfl := pure_eq_ok_iff.1 hpure
    refine ⟨title, fill, done, [e], hfill, List.forall_mem_singleton.2 ?_, ?_⟩
    · exact isDefinite_of_deleteMarker he
    · exact (pure_eq_ok_iff.1 h).symm

theorem isDefinite_of_mem_planTableFill {table : Table} {layout : TableLayout}
    {marker : Option (Json × Json)} {edits : List Edit} (hcells : ∀ c ∈ layout.cells, c.IsStyled)
    (h : planTableFill table layout marker = .ok edits) : ∀ e ∈ edits, e.IsDefinite := by
  obtain ⟨title, fill, done, delete, hfill, hdelete, rfl⟩ := planTableFill_parts h
  have htitle : ∀ e ∈ titleEdits table title, e.IsDefinite := by
    cases title with
    | true => exact List.forall_mem_singleton.2 trivial
    | false => exact List.forall_mem_nil _
  have hwidths : ∀ e ∈ widthEdits table layout, e.IsDefinite :=
    List.forall_mem_map.2 fun _ _ => trivial
  simp only [List.forall_mem_append]
  exact ⟨⟨⟨⟨htitle, isDefinite_of_mem_fillCells hcells hfill⟩,
    List.forall_mem_singleton.2 trivial⟩, hwidths⟩, hdelete⟩

theorem isStyled_of_mem_pairCells {style : LayoutStyle} {row : Int} {pairs : List KeyValue} :
    ∀ c ∈ pairCells style row pairs, c.IsStyled := by
  induction pairs generalizing row with
  | nil => exact List.forall_mem_nil _
  | cons p rest ih =>
    rw [pairCells, List.forall_mem_cons, List.forall_mem_cons]
    exact ⟨.inl Json.noConfusion, .inl Json.noConfusion, ih⟩

/-- The layout of a section says of every cell whether its text is bold. -/
theorem isStyled_of_mem_layout (s : Section) (style : LayoutStyle) :
    ∀ c ∈ (s.layout style).cells, c.IsStyled := by
  rw [Section.layout]
  split
  · exact List.forall_mem_cons.2 ⟨.inl Json.noConfusion, isStyled_of_mem_pairCells⟩
  · exact isStyled_of_mem_pairCells

theorem isDefinite_of_mem_planMarkers {sections : SectionData} {s : Snapshot}
    {markers : List SectionMarker} {plan : SectionTablePlan}
    (h : planMarkers sections s markers = .ok plan) : ∀ e ∈ plan.edits, e.IsDefinite := by
  induction markers generalizing plan with
  | nil =>
    obtain rfl := Except.ok.inj h
    exact List.forall_mem_nil _
  | cons m rest ih =>
    obtain ⟨plan', hplan', ⟨skipped, -, rfl⟩ | ⟨data, start, stop, edits, -, -, htable, rfl⟩⟩ :=
      planMarkers_cons h
    · show ∀ e ∈ plan'.edits, e.IsDefinite
      exact ih hplan'
    · obtain ⟨g, fill, -, hfill, rfl⟩ := planMarkerTable_inv htable
      refine List.forall_mem_append.2 ⟨List.forall_mem_cons.2 ⟨trivial, ?_⟩, ih hplan'⟩
      exact isDefinite_of_mem_planTableFill (isStyled_of_mem_layout data {}) hfill

/-! ## Planned batches -/

/-- The edits are the batch that some planner makes: of a substitution of values that are null or
texts, of the section tables of a document, or of one table that is filled by a layout whose cells
are styled. -/
inductive PlannedBatch : List Edit → Prop
  | substitution {values : OrderedMap Entry} {sections : List AssetSection} {scan : TemplateScan}
      {minPadding : Json} {edits : List Edit} (hvalues : ∀ e ∈ values.entries, e.2.IsValue)
      (h : planSubstitution values sections scan minPadding = .ok edits) : PlannedBatch edits
  | sectionTables {sections : SectionData} {s : Snapshot} {plan : SectionTablePlan}
      (h : planSectionTables sections s = .ok plan) : PlannedBatch plan.edits
  | tableFill {table : Table} {layout : TableLayout} {marker : Option (Json × Json)}
      {edits : List Edit} (hcells : ∀ c ∈ layout.cells, c.IsStyled)
      (h : planTableFill table layout marker = .ok edits) : PlannedBatch edits

theorem PlannedBatch.isDefinite {edits : List Edit} (h : PlannedBatch edits) :
    ∀ e ∈ edits, e.IsDefinite := by
  cases h with
  | substitution hvalues h =>
    simp only [planSubstitution, bind_eq_ok_iff, pure_eq_ok_iff] at h
    obtain ⟨blocks, hblocks, rfl⟩ := h
    exact List.forall_mem_append.2
      ⟨isDefinite_of_mem_planBlocks hblocks, isDefinite_of_mem_planValues _ hvalues⟩
  | sectionTables h => exact isDefinite_of_mem_planMarkers h
  | tableFill hcells h => exact isDefinite_of_mem_planTableFill hcells h

/-- **Planned batches are sent without loss**: as one request for each edit, in order, none of them
null, from which every edit can be read back. So batches that differ are never sent as the same
requests. -/
theorem sentAs_plannedBatch {edits : List Edit} (h : PlannedBatch edits) :
    ∃ requests, SentAs edits requests ∧
      ∀ others, PlannedBatch others → Edit.toRequests others = .ok requests → others = edits := by
  obtain ⟨requests, hsent⟩ := exists_sentAs h.isDefinite
  refine ⟨requests, hsent, fun others hothers heq => ?_⟩
  obtain ⟨requests', hsent'⟩ := exists_sentAs hothers.isDefinite
  obtain rfl := Except.ok.inj (hsent'.toRequests_eq.symm.trans heq)
  exact hsent.inj hsent'

/-- A section of a title and one pair. -/
def titleAndPair : Section :=
  ⟨.text ['T'], [⟨.text ['k'], .text ['v']⟩]⟩

/-- The batch that fills the table of the section, which was inserted at 5, and deletes the marker,
which stands from 18 up to 31 behind the empty table. -/
def titleAndPairBatch : List Edit :=
  [.mergeCells (.int 6) (.int 0) (.int 0) (.int 1) (.int 2),
    .insertText (.int 10) (.text ['T']),
    .setTextStyle (.int 10) (.int 11) (.bool true) (.int 14),
    .setAlignment (.int 10) (.int 11) (.str "CENTER"),
    .insertText (.int 16) (.text ['k']),
    .setTextStyle (.int 16) (.int 17) (.bool true) (.int 12),
    .insertText (.int 19) (.text ['v']),
    .setTextStyle (.int 19) (.int 20) (.bool false) (.int 12),
    .removeBorders (.int 6) (.int 2) (.int 2),
    .setColumnWidth (.int 6) [.int 0] (.int 200),
    .setColumnWidth (.int 6) [.int 1] (.int 300),
    .deleteRange (.int 21) (.int 34)]

theorem sentAs_titleAndPairBatch :
    PlannedBatch titleAndPairBatch ∧
      ∃ requests, SentAs titleAndPairBatch requests ∧
        ∀ others, PlannedBatch others → Edit.toRequests others = .ok requests →
          others = titleAndPairBatch := by
  have hplan : planTableFill (TableGeometry.mk 5 2 2).toTable titleAndPair.layout
      (some (.int 18, .int 31)) = .ok titleAndPairBatch := by rfl
  have hbatch : PlannedBatch titleAndPairBatch :=
    .tableFill (isStyled_of_mem_layout titleAndPair {}) hplan
  exact ⟨hbatch, sentAs_plannedBatch hbatch⟩

end DocTemplate
