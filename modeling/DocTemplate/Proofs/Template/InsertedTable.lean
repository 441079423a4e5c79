import DocTemplate.Proofs.Template.Stages
import Mathlib

/-!
# Which table is filled

After the empty table for a section marker has been inserted, the document is read again and the
table is looked up by the index at which it was expected. The lookup sees only the tables that
stand directly in the body. `fillsInserted_iff` says when that is enough: either the new table is
one of them, or all of them start more than five positions before it. In every other case a table
is filled that was in the document before, or the work stops with another error than the one for a
table that was not found.
-/

namespace DocTemplate

/-! ## Batches that fill a table -/

/-- Where the table starts whose cells or columns an edit is about. -/
def Edit.table? : Edit → Option Json
  | mergeCells table .. => some table
  | removeBorders table .. => some table
  | setColumnWidth table .. => some table
  | _ => none

section Batch

variable {table : Table} {layout : TableLayout} {edits : List Edit} {start stop : Int}

/-- A batch that fills a table is about that table and no other one. -/
theorem table?_of_mem_planTableFill
    (h : planTableFill table layout (some (.int start, .int stop)) = .ok edits) :
    ∀ e ∈ edits, ∀ t, e.table? = some t → t = table.start := by
  obtain ⟨-, before, done, -, rfl, hfills, -⟩ := planTableFill_split h
  intro e he t ht
  rcases List.mem_append.1 he with he | he
  · cases hfills e he with
    | merge | borders | width => exact (Option.some.inj ht).symm
    | text | textStyle | alignment => exact absurd ht (by simp [Edit.table?])
  · obtain rfl := List.mem_singleton.1 he
    exact absurd ht (by simp [Edit.table?])

end Batch

/-! ## Filling never misses a table -/

/-- The error is that a table was not found. -/
def EngineError.IsMissingTable (e : EngineError) : Prop :=
  ∃ index total, e = .tableNotFound index total

/-- The failure is that a table was not found. -/
def Failure.IsMissingTable (f : Failure) : Prop :=
  ∃ e, f = .engine e ∧ e.IsMissingTable

section Avoids

variable {α : Type}

theorem avoids_fault (x : Except Fault α) :
    Avoids Failure.IsMissingTable (liftM x : Except Failure α) := by
  cases x with
  | error f =>
    refine avoids_error ?_
    rintro ⟨e, he, -⟩
    exact absurd he (by simp)
  | ok a => exact avoids_ok a

theorem Avoids.engine {x : Except EngineError α} (hx : Avoids EngineError.IsMissingTable x) :
    Avoids Failure.IsMissingTable (liftM x : Except Failure α) := by
  cases x with
  | error e =>
    refine avoids_error ?_
    rintro ⟨e', he, hmissing⟩
    obtain rfl := Failure.engine.inj he
    exact hx e hmissing rfl
  | ok a => exact avoids_ok a

theorem avoids_staleSnapshot (expected received index : Json) :
    Avoids EngineError.IsMissingTable
      (.error (.staleSnapshot expected received index) : Except EngineError α) := by
  refine avoids_error ?_
  rintro ⟨_, _, h⟩
  exact absurd h (by simp)

theorem avoids_cellNotFound (row column rows columns : Json) :
    Avoids Failure.IsMissingTable
      (.error (.engine (.cellNotFound row column rows columns)) : Except Failure α) := by
  refine avoids_error ?_
  rintro ⟨_, h, _, _, rfl⟩
  exact absurd h (by simp)

end Avoids

theorem avoids_insertionIndex (table : Table) (row column : Json) :
    Avoids Failure.IsMissingTable (table.insertionIndex row column) := by
  unfold Table.insertionIndex
  refine (avoids_fault _).bind fun place => ?_
  split
  · refine (avoids_fault _).bind fun place => ?_
    split
    · split
      · exact avoids_fault _
      · exact avoids_fault _
    · exact avoids_cellNotFound _ _ _ _
  · exact avoids_cellNotFound _ _ _ _

theorem avoids_fillCells (table : Table) (done : Insertions) (cells : List CellPlan) :
    Avoids Failure.IsMissingTable (fillCells table done cells) := by
  induction cells generalizing done with
  | nil => exact avoids_ok _
  | cons c rest ih =>
    unfold fillCells
    refine (avoids_insertionIndex table c.row c.column).bind fun place => ?_
    split
    · exact (avoids_fault _).bind fun t => (ih _).bind fun filled => avoids_ok _
    · exact ih done

theorem avoids_planTableFill (table : Table) (layout : TableLayout) (start stop : Int) :
    Avoids Failure.IsMissingTable
      (planTableFill table layout (some (.int start, .int stop))) := by
  unfold planTableFill
  refine (avoids_fault _).bind fun title => (avoids_fillCells _ _ _).bind fun filled => ?_
  exact (avoids_fault _).bind fun edit => avoids_ok _

theorem avoids_anchor (t : LinearText) (offset : Number) :
    Avoids EngineError.IsMissingTable (t.anchor offset) := by
  unfold LinearText.anchor
  split
  · exact avoids_ok _
  · exact avoids_staleSnapshot _ _ _

theorem avoids_range (s : Snapshot) (start stop : Number) :
    Avoids EngineError.IsMissingTable (s.range start stop) := by
  unfold Snapshot.range Snapshot.checkRevision LinearText.range
  refine Avoids.bind ?_ fun _ => (avoids_anchor _ _).bind fun first => ?_
  · split
    · exact avoids_ok _
    · exact avoids_staleSnapshot _ _ _
  · split
    · exact avoids_ok _
    · exact (avoids_anchor _ _).bind fun last => avoids_ok _

namespace Template

theorem avoids_markerRange (s : Snapshot) (ordinal : Nat) (name : Text) :
    Avoids Failure.IsMissingTable (markerRange s ordinal name) := by
  unfold markerRange markerAt
  refine Avoids.bind (Avoids.engine ?_) fun marker => ?_
  · split
    · split
      · exact avoids_ok _
      · exact avoids_staleSnapshot _ _ _
    · exact avoids_staleSnapshot _ _ _
  · exact (avoids_range _ _ _).engine.bind fun range => avoids_ok _

theorem avoids_planFilling (s : Snapshot) (ordinal : Nat) (name : Text) (layout : TableLayout)
    (table : Table) : Avoids Failure.IsMissingTable (planFilling s ordinal name layout table) :=
  (avoids_markerRange _ _ _).bind fun _ => avoids_planTableFill _ _ _ _

/-! ## The table that was inserted -/

/-- The table of a body that was inserted at a position: it starts there, and no other table does,
at any depth. -/
structure IsInserted (b : Body) (start : Int) (new : Table) : Prop where
  mem : new ∈ b.allTables
  start_eq : new.start = .int start
  unique : ∀ t ∈ b.allTables, t.start.same (.int start) = true → t = new

/-- The rest of a run, from the fetch of a document with an inserted table on, fills that table and
no other one. If the table stands directly in the body, the batch that is planned from it is carried
out; otherwise the work stops because the table was not found. Whatever batch is applied next is
about no other table. -/
structure FillsInserted {α : Type} (documentId : Json) (after : Snapshot) (ordinal : Nat)
    (name : Text) (layout : TableLayout) (index : Int) (new : Table) (post : List StoreEvent)
    (result : Except Failure α) : Prop where
  visible : new ∈ after.body.tables → CarriesOut documentId after.revision [.release documentId]
    (planFilling after ordinal name layout new) post result
  hidden : new ∉ after.body.tables → CarriesOut documentId after.revision [.release documentId]
    (.error (.engine (.tableNotFound (.int index) (.int after.body.tables.length)))) post result
  addressed : ∀ edits answer rest,
    post = .apply documentId edits after.revision answer :: rest →
    ∀ e ∈ edits, ∀ start, e.table? = some start → start = .int (TableGeometry.startAfter index)

/-- If exactly one table of a body starts at a position, it is the one that was inserted there. -/
theorem exists_isInserted {b : Body} {start : Int} {pre post : List Json}
    (h : b.allTables.map (·.start) = pre ++ .int start :: post)
    (hothers : ∀ s ∈ pre ++ post, s.same (.int start) = false) :
    ∃ new, IsInserted b start new := by
  obtain ⟨front, behind, htables, hpre, hbehind⟩ := List.map_eq_append_iff.1 h
  obtain ⟨new, back, rfl, hstart, hpost⟩ := List.map_eq_cons_iff.1 hbehind
  refine ⟨new, ?_, hstart, fun t ht hsame => ?_⟩
  · rw [htables]
    exact List.mem_append_right _ List.mem_cons_self
  · rw [htables] at ht
    have hother : ∀ l : List Table, (∀ s ∈ l.map (·.start), s ∈ pre ++ post) → t ∉ l := by
      intro l hl hmem
      rw [hothers t.start (hl _ (List.mem_map_of_mem hmem))] at hsame
      exact absurd hsame Bool.false_ne_true
    rcases List.mem_append.1 ht with ht | ht
    · exact absurd ht (hother front fun s hs => List.mem_append_left _ (hpre ▸ hs))
    · rcases List.mem_cons.1 ht with rfl | ht
      · rfl
      · exact absurd ht (hother back fun s hs => List.mem_append_right _ (hpost ▸ hs))

theorem IsInserted.mem_tables {b : Body} {start : Int} {new : Table} (h : IsInserted b start new)
    (hstart : .int start ∈ b.tables.map (·.start)) : new ∈ b.tables := by
  obtain ⟨t, ht, heq⟩ := List.mem_map.1 hstart
  have hsame : t.start.same (.int start) = true := by
    rw [heq, Json.same_int, beq_self_eq_true]
  rwa [← h.unique t (mem_allTables_of_mem_tables ht) hsame]

section Inserted

variable {α : Type} {documentId : Json} {after : Snapshot} {ordinal : Nat} {name : Text}
  {layout : TableLayout} {index : Int} {new : Table} {post : List StoreEvent}
  {result : Except Failure α}

theorem fillsInserted_of_mem
    (hnew : IsInserted after.body (TableGeometry.startAfter index) new)
    (hvisible : new ∈ after.body.tables)
    (h : CarriesOut documentId after.revision [.release documentId]
      (planInserted after ordinal name layout index) post result) :
    FillsInserted documentId after ordinal name layout index new post result := by
  have hat := tableAt_of_start hvisible hnew.start_eq fun t ht =>
    hnew.unique t (mem_allTables_of_mem_tables ht)
  rw [planInserted_of_tableAt hat] at h
  refine ⟨fun _ => h, fun hhidden => absurd hvisible hhidden, ?_⟩
  rintro edits answer rest rfl e he start hstart
  cases hplan : planFilling after ordinal name layout new with
  | error f =>
    rw [hplan] at h
    exact absurd (List.cons.inj h.1).1 StoreEvent.apply_ne_release
  | ok fill =>
    rw [hplan] at h
    obtain ⟨answer', rest', heq⟩ := h
    obtain ⟨-, rfl, -⟩ := StoreEvent.apply_inj.1 (List.cons.inj heq).1
    obtain ⟨first, last, hfill⟩ := planFilling_inv hplan
    rw [table?_of_mem_planTableFill hfill e he start hstart, hnew.start_eq]

theorem fillsInserted_of_below
    (hnew : IsInserted after.body (TableGeometry.startAfter index) new)
    (hbelow : ∀ t ∈ after.body.tables, t.start.IsBelow (TableGeometry.startAfter index - 5))
    (h : CarriesOut documentId after.revision [.release documentId]
      (planInserted after ordinal name layout index) post result) :
    FillsInserted documentId after ordinal name layout index new post result := by
  by_cases hvisible : new ∈ after.body.tables
  · exact fillsInserted_of_mem hnew hvisible h
  rw [planInserted_of_tableAt_none (tableAt_eq_none_iff.2 hbelow)] at h
  refine ⟨fun hmem => absurd hmem hvisible, fun _ => h, ?_⟩
  rintro edits answer rest rfl
  exact absurd (List.cons.inj h.1).1 StoreEvent.apply_ne_release

/-- A run that stops because a table was not found has no table to fall back on. -/
theorem below_of_fillsInserted (hhidden : new ∉ after.body.tables)
    (h : CarriesOut documentId after.revision [.release documentId]
      (planInserted after ordinal name layout index) post result)
    (hfills : FillsInserted documentId after ordinal name layout index new post result) :
    ∀ t ∈ after.body.tables, t.start.IsBelow (TableGeometry.startAfter index - 5) := by
  rw [← tableAt_eq_none_iff]
  obtain ⟨rfl, rfl⟩ := hfills.hidden hhidden
  cases hat : after.tableAt (.int (TableGeometry.startAfter index)) with
  | error f =>
    rw [planInserted_of_tableAt_error hat] at h
    exact absurd (Except.error.inj h.2) (by simp)
  | ok found =>
    cases found with
    | none => rfl
    | some table =>
      rw [planInserted_of_tableAt hat] at h
      cases hplan : planFilling after ordinal name layout table with
      | error f =>
        rw [hplan] at h
        have hmissing : f.IsMissingTable := ⟨_, (Except.error.inj h.2).symm, _, _, rfl⟩
        exact absurd hplan (avoids_planFilling _ _ _ _ _ f hmissing)
      | ok fill =>
        rw [hplan] at h
        obtain ⟨answer, rest, heq⟩ := h
        exact absurd (List.cons.inj heq).1.symm StoreEvent.apply_ne_release

end Inserted

/-- **The inserted table is filled, and no other one, exactly if the lookup cannot be misled**: in a
run over the section markers of a document, whenever a table has been inserted at an index and the
document that is read next has it behind that index, the rest of the run fills this table or says
that it was not found if and only if the table stands directly in the body or every table that
stands directly in the body starts more than five positions before it. -/
theorem fillsInserted_iff {options : FillOptions} {documentId : Json} {sections : SectionData}
    {events : List StoreEvent} {result : Except Failure RenderedSections}
    (hrun : Action.Runs (renderSections options documentId sections) events result)
    {index : Int} {rows columns revision reply document : Json} {post : List StoreEvent}
    (hstage : .insertTable documentId index rows columns revision (.ok reply) ::
      .fetch documentId (.ok document) :: post <:+ events)
    {after : Snapshot}
    (hafter : Snapshot.ofDocument document documentId options.tabId = .ok after) {new : Table}
    (hnew : IsInserted after.body (TableGeometry.startAfter index) new) :
    ∃ marker ordinal data, selectSection marker sections = .ok (.ok data) ∧
      rows = (data.layout options.style).rowCount ∧
      columns = (data.layout options.style).columnCount ∧
      (FillsInserted documentId after ordinal marker.name (data.layout options.style) index new post
          result ↔
        new ∈ after.body.tables ∨
          ∀ t ∈ after.body.tables, t.start.IsBelow (TableGeometry.startAfter index - 5)) := by
  obtain ⟨marker, ordinal, data, hselect, hrows, hcolumns, hcarries⟩ :=
    renderSections_inv hrun hstage hafter
  refine ⟨marker, ordinal, data, hselect, hrows, hcolumns, ?_⟩
  constructor
  · intro hfills
    by_cases hvisible : new ∈ after.body.tables
    · exact .inl hvisible
    · exact .inr (below_of_fillsInserted hvisible hcarries hfills)
  · rintro (hvisible | hbelow)
    · exact fillsInserted_of_mem hnew hvisible hcarries
    · exact fillsInserted_of_below hnew hbelow hcarries

/-! ## Two runs -/

/-- An element of a document, as data. -/
def elementData (start stop : Int) (fields : List (String × Json)) : Json :=
  .obj (("startIndex", .int start) :: ("endIndex", .int stop) :: fields)

/-- A paragraph of a single run, as data. -/
def lineData (start stop : Int) (text : String) : Json :=
  elementData start stop [("paragraph", .obj [("elements", .arr
    [elementData start stop [("textRun", .obj [("content", .str text)])]])])]

/-- A row of two cells, as data. -/
def rowData (start middle stop : Int) (first second : List Json) : Json :=
  elementData start stop [("tableCells", .arr
    [elementData (start + 1) middle [("content", .arr first)],
      elementData middle stop [("content", .arr second)]])]

/-- A table, as data. -/
def tableData (start stop : Int) (rows : List Json) : Json :=
  elementData start stop [("table", .obj [("tableRows", .arr rows)])]

/-- An empty row of two cells, as data. -/
def emptyRowData (start : Int) : Json :=
  rowData start (start + 3) (start + 5) [lineData (start + 2) (start + 3) "\n"]
    [lineData (start + 4) (start + 5) "\n"]

/-- An empty table of two rows and two columns, as data. -/
def emptyTableData (start : Int) : Json :=
  tableData start (start + 12) [emptyRowData (start + 1), emptyRowData (start + 6)]

/-- A document, as data. -/
def documentData (revision : String) (content : List Json) : Json :=
  .obj [("body", .obj [("content", .arr (elementData 0 1 [("sectionBreak", .obj [])] :: content))]),
    ("documentId", .str "doc-1"), ("revisionId", .str revision), ("title", .str "Template")]

/-- A store with one document, which is another one as soon as it has been read once. -/
def answerFrom (before after : Json) (requests : Nat) : (r : StoreRequest) → r.Answer
  | .acquire _ => ()
  | .release _ => ()
  | .fetch _ => .ok (if requests < 2 then before else after)
  | .apply .. => .ok .null
  | .copy .. => .ok .null
  | .exportHtml _ => .ok .null
  | .exportPdf _ => .ok ByteArray.empty

/-- Data for one section with one pair. -/
def pairSection : SectionData :=
  ⟨[(['S'], some ⟨.text ['T'], [⟨.text ['k'], .text ['v']⟩]⟩)], by decide⟩

/-- A run over the section markers of a document. -/
def runOver (before after : Json) : List StoreEvent × Except Failure RenderedSections :=
  (ExceptT.run (renderSections {} (.str "doc-1") pairSection)).answered (answerFrom before after) 0

theorem runs_runOver (before after : Json) :
    Action.Runs (renderSections {} (.str "doc-1") pairSection) (runOver before after).1
      (runOver before after).2 :=
  Program.runs_answered _ 0 _

/-- A document whose marker stands in a paragraph of its own. -/
def pageBefore : Json :=
  documentData "rev-1" [lineData 1 15 "[[section:S]]\n"]

/-- The same document with a table in front of the marker. -/
def pageAfter : Json :=
  documentData "rev-2" [lineData 1 2 "\n", emptyTableData 2, lineData 14 28 "[[section:S]]\n"]

theorem fillsInserted_page :
    Action.Runs (renderSections {} (.str "doc-1") pairSection) (runOver pageBefore pageAfter).1
      (runOver pageBefore pageAfter).2 ∧
    ∃ post after new, .insertTable (.str "doc-1") 1 (.int 2) (.int 2) (.str "rev-1") (.ok .null) ::
        .fetch (.str "doc-1") (.ok pageAfter) :: post <:+ (runOver pageBefore pageAfter).1 ∧
      Snapshot.ofDocument pageAfter (.str "doc-1") .null = .ok after ∧
      IsInserted after.body (TableGeometry.startAfter 1) new ∧ new ∈ after.body.tables ∧
      ∃ ordinal name layout, FillsInserted (.str "doc-1") after ordinal name layout 1 new post
        (runOver pageBefore pageAfter).2 := by
  have hevents : ((runOver pageBefore pageAfter).1.drop 2).take 2 =
      [.insertTable (.str "doc-1") 1 (.int 2) (.int 2) (.str "rev-1") (.ok .null),
        .fetch (.str "doc-1") (.ok pageAfter)] := by
    cbv
  have hstage := List.drop_suffix 2 (runOver pageBefore pageAfter).1
  rw [← List.take_append_drop 2 ((runOver pageBefore pageAfter).1.drop 2), hevents] at hstage
  have hread :
      (fun s : Snapshot => (s.body.allTables.map (·.start), s.body.tables.map (·.start))) <$>
      Snapshot.ofDocument pageAfter (.str "doc-1") .null = .ok ([.int 2], [.int 2]) := by
    cbv
  obtain ⟨after, hafter, hstarts⟩ := map_eq_ok_iff.1 hread
  obtain ⟨hall, htop⟩ := Prod.mk.inj hstarts
  obtain ⟨new, hnew⟩ : ∃ new, IsInserted after.body 2 new :=
    exists_isInserted (show _ = ([] : List Json) ++ Json.int 2 :: [] from hall) (by simp)
  have hvisible : new ∈ after.body.tables := hnew.mem_tables (by simp [htop])
  obtain ⟨marker, ordinal, data, -, -, -, hiff⟩ :=
    fillsInserted_iff (runs_runOver pageBefore pageAfter) hstage hafter hnew
  exact ⟨runs_runOver _ _, _, after, new, hstage, hafter, hnew, hvisible, _, _, _,
    hiff.2 (.inl hvisible)⟩

/-- A document whose marker stands in the first cell of a table. -/
def cellBefore : Json :=
  documentData "rev-1" [tableData 1 26
    [rowData 2 18 20 [lineData 4 18 "[[section:S]]\n"] [lineData 19 20 "\n"], emptyRowData 20],
    lineData 26 27 "\n"]

/-- The same document with a table in front of the marker, inside the cell. -/
def cellAfter : Json :=
  documentData "rev-2" [tableData 1 39
    [rowData 2 31 33 [lineData 4 5 "\n", emptyTableData 5, lineData 17 31 "[[section:S]]\n"]
      [lineData 32 33 "\n"], emptyRowData 33], lineData 39 40 "\n"]

/-- The table around a marker is filled in the place of the one that was inserted in its cell. -/
theorem not_fillsInserted_cell :
    Action.Runs (renderSections {} (.str "doc-1") pairSection) (runOver cellBefore cellAfter).1
      (runOver cellBefore cellAfter).2 ∧
    ∃ post after new, .insertTable (.str "doc-1") 4 (.int 2) (.int 2) (.str "rev-1") (.ok .null) ::
        .fetch (.str "doc-1") (.ok cellAfter) :: post <:+ (runOver cellBefore cellAfter).1 ∧
      Snapshot.ofDocument cellAfter (.str "doc-1") .null = .ok after ∧
      IsInserted after.body (TableGeometry.startAfter 4) new ∧
      (∃ edits rest, post = .apply (.str "doc-1") edits after.revision (.ok .null) :: rest ∧
        .mergeCells (.int 1) (.int 0) (.int 0) (.int 1) (.int 2) ∈ edits) ∧
      ∀ ordinal name layout, ¬ FillsInserted (.str "doc-1") after ordinal name layout 4 new post
        (runOver cellBefore cellAfter).2 := by
  have hevents : (runOver cellBefore cellAfter).1.drop 2 =
      [.insertTable (.str "doc-1") 4 (.int 2) (.int 2) (.str "rev-1") (.ok .null),
        .fetch (.str "doc-1") (.ok cellAfter),
        .apply (.str "doc-1")
          [.mergeCells (.int 1) (.int 0) (.int 0) (.int 1) (.int 2),
            .insertText (.int 5) (.text ['T']),
            .setTextStyle (.int 5) (.int 6) (.bool true) (.int 14),
            .setAlignment (.int 5) (.int 6) (.str "CENTER"),
            .insertText (.int 37) (.text ['k']),
            .setTextStyle (.int 37) (.int 38) (.bool true) (.int 12),
            .insertText (.int 40) (.text ['v']),
            .setTextStyle (.int 40) (.int 41) (.bool false) (.int 12),
            .removeBorders (.int 1) (.int 2) (.int 2),
            .setColumnWidth (.int 1) [.int 0] (.int 200),
            .setColumnWidth (.int 1) [.int 1] (.int 300),
            .deleteRange (.int 18) (.int 31)] (.str "rev-2") (.ok .null),
        .release (.str "doc-1")] := by
    cbv
  have hstage := List.drop_suffix 2 (runOver cellBefore cellAfter).1
  have hread : (fun s : Snapshot => (s.revision, s.body.allTables.map (·.start))) <$>
      Snapshot.ofDocument cellAfter (.str "doc-1") .null =
        .ok (.str "rev-2", [.int 1, .int 5]) := by
    cbv
  obtain ⟨after, hafter, hparts⟩ := map_eq_ok_iff.1 hread
  obtain ⟨hrevision, hall⟩ := Prod.mk.inj hparts
  obtain ⟨new, hnew⟩ : ∃ new, IsInserted after.body 5 new :=
    exists_isInserted (show _ = [Json.int 1] ++ Json.int 5 :: [] from hall) (by simp)
  rw [hevents, ← hrevision] at hstage
  refine ⟨runs_runOver _ _, _, after, new, hstage, hafter, hnew, ⟨_, _, rfl, List.mem_cons_self⟩,
    ?_⟩
  intro ordinal name layout hfills
  have haddressed := hfills.addressed _ _ _ rfl _ List.mem_cons_self _ rfl
  exact absurd haddressed (by simp [TableGeometry.startAfter])

end Template

end DocTemplate
