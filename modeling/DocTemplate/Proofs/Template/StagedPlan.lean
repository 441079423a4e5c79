import DocTemplate.Proofs.Template.Discipline

/-!
# Stages and the plan of one batch

Section tables can be planned at once, with every index predicted, or be rendered in stages, with
the document read again after each batch. If every document that is read in between is as predicted,
both come to the same edits (`renderSections_eq_planSectionTables`).

A stage sends what is planned for its marker (`StageForeseen.plans`), because a table is filled by
its indices alone (`Table.Alike.planTableFill_eq`) and the inserted table has those of its geometry.
The stages are put together by induction along the markers, each of which takes the next two
documents that are read (`appliedBatches_markersAgenda`).
-/

namespace DocTemplate

/-! ## Tables with the same indices -/

/-- The paragraphs have the same indices. -/
structure Paragraph.Alike (p p' : Paragraph) : Prop where
  start : p.start = p'.start
  stop : p.stop = p'.stop

/-- The cells have the same indices, and so have their paragraphs. -/
structure Cell.Alike (c c' : Cell) : Prop where
  start : c.start = c'.start
  stop : c.stop = c'.stop
  paragraphs : List.Forall₂ Paragraph.Alike c.paragraphs c'.paragraphs

/-- The rows have the same indices, and so have their cells. -/
structure Row.Alike (r r' : Row) : Prop where
  start : r.start = r'.start
  stop : r.stop = r'.stop
  cells : List.Forall₂ Cell.Alike r.cells r'.cells

/-- The tables have the same indices, and so have their rows. -/
structure Table.Alike (t t' : Table) : Prop where
  start : t.start = t'.start
  stop : t.stop = t'.stop
  rows : List.Forall₂ Row.Alike t.rows t'.rows

theorem Table.Alike.refl (t : Table) : t.Alike t :=
  ⟨rfl, rfl, List.forall₂_same.2 fun _ _ => ⟨rfl, rfl, List.forall₂_same.2 fun _ _ =>
    ⟨rfl, rfl, List.forall₂_same.2 fun _ _ => ⟨rfl, rfl⟩⟩⟩⟩

theorem getElem?_rel {α : Type} {R : α → α → Prop} {items items' : List α}
    (h : List.Forall₂ R items items') (n : Nat) : Option.Rel R items[n]? items'[n]? := by
  induction h generalizing n with
  | nil => exact .none
  | cons hfirst _ ih =>
    cases n with
    | zero => exact .some hfirst
    | succ n => exact ih n

theorem itemAt?_rel {α : Type} {R : α → α → Prop} {items items' : List α}
    (h : List.Forall₂ R items items') (position : Int) :
    Option.Rel R (itemAt? items position) (itemAt? items' position) := by
  unfold itemAt?
  split
  · exact getElem?_rel h _
  · exact .none

theorem Table.Alike.columnCount_eq {t t' : Table} (h : t.Alike t') :
    t.columnCount = t'.columnCount := by
  obtain ⟨_, _, rows⟩ := t
  obtain ⟨_, _, rows'⟩ := t'
  cases (h.rows : List.Forall₂ Row.Alike rows rows') with
  | nil => rfl
  | cons hrow _ => exact hrow.cells.length_eq

/-- Tables with the same indices take text at the same positions. -/
theorem Table.Alike.insertionIndex_eq {t t' : Table} (h : t.Alike t') (row column : Json) :
    t.insertionIndex row column = t'.insertionIndex row column := by
  unfold Table.insertionIndex
  rw [Table.rowCount, Table.rowCount, h.rows.length_eq, h.columnCount_eq]
  refine bind_congr fun place => ?_
  have hrow := itemAt?_rel h.rows place
  generalize itemAt? t.rows place = r, itemAt? t'.rows place = r' at hrow ⊢
  cases hrow with
  | none => rfl
  | @some r r' hcells =>
    refine bind_congr fun place => ?_
    have hcell := itemAt?_rel hcells.cells place
    rw [hcells.cells.length_eq]
    generalize itemAt? r.cells place = c, itemAt? r'.cells place = c' at hcell ⊢
    cases hcell with
    | none => rfl
    | @some c c' hsame =>
      have hparagraphs := hsame.paragraphs
      dsimp only
      generalize c.paragraphs = ps, c'.paragraphs = ps' at hparagraphs ⊢
      cases hparagraphs with
      | nil => rw [hsame.start]
      | cons hfirst _ => simp only [hfirst.start]

theorem Table.Alike.fillCells_eq {t t' : Table} (h : t.Alike t') (done : Insertions)
    (cells : List CellPlan) : fillCells t done cells = fillCells t' done cells := by
  induction cells generalizing done with
  | nil => rfl
  | cons c rest ih => simp only [fillCells, h.insertionIndex_eq, ih]

/-- A table is filled by its indices alone. -/
theorem Table.Alike.planTableFill_eq {t t' : Table} (h : t.Alike t') (layout : TableLayout)
    (marker : Option (Json × Json)) :
    planTableFill t layout marker = planTableFill t' layout marker := by
  simp only [planTableFill, h.start, h.fillCells_eq]

/-! ## Documents as predicted -/

/-- A snapshot does not depend on the id that a document is asked for by, but for the id itself. -/
theorem Snapshot.exists_ofDocument {document documentId tabId : Json} {s : Snapshot}
    (h : Snapshot.ofDocument document documentId tabId = .ok s) (documentId' : Json) :
    ∃ s', Snapshot.ofDocument document documentId' tabId = .ok s' ∧ s'.linear = s.linear ∧
      s'.revision = s.revision := by
  simp only [Snapshot.ofDocument, bind_eq_ok_iff, liftM_fault_eq_ok_iff, pure_eq_ok_iff] at h ⊢
  obtain ⟨revision, hrevision, body, hbody, ownId, hown, title, htitle, rfl⟩ := h
  exact ⟨_, ⟨revision, hrevision, body, hbody, ownId, hown, title, htitle, rfl⟩, rfl, rfl⟩

/-- The store never fails. The documents that it answers with are the given ones, from number `n`
on. -/
def Served (documents : Nat → Json) : Nat → List StoreEvent → Prop
  | _, [] => True
  | n, ⟨.fetch _, answer⟩ :: rest => answer = .ok (documents n) ∧ Served documents (n + 1) rest
  | n, ⟨.apply .., answer⟩ :: rest => (∃ reply, answer = .ok reply) ∧ Served documents n rest
  | n, _ :: rest => Served documents n rest

theorem served_fetch {documents : Nat → Json} {n : Nat} {documentId : Json}
    {answer : Except Failure Json} {rest : List StoreEvent} :
    Served documents n (.fetch documentId answer :: rest) ↔
      answer = .ok (documents n) ∧ Served documents (n + 1) rest :=
  Iff.rfl

theorem served_apply {documents : Nat → Json} {n : Nat} {documentId revision : Json}
    {edits : List Edit} {answer : Except Failure Json} {rest : List StoreEvent} :
    Served documents n (.apply documentId edits revision answer :: rest) ↔
      (∃ reply, answer = .ok reply) ∧ Served documents n rest :=
  Iff.rfl

theorem Served.of_append {documents : Nat → Json} {n : Nat} {first second : List StoreEvent}
    (h : Served documents n (first ++ second)) : Served documents n first := by
  induction first generalizing n with
  | nil => trivial
  | cons event rest ih =>
    obtain ⟨request, answer⟩ := event
    cases request with
    | fetch => exact ⟨h.1, ih h.2⟩
    | apply => exact ⟨h.1, ih h.2⟩
    | acquire => exact ih h
    | release => exact ih h
    | copy => exact ih h
    | exportHtml => exact ih h
    | exportPdf => exact ih h

/-- A step whose document is known, and whose batch can be planned from it, is applied. -/
theorem Conducts.step_served {α : Type} {options : FillOptions} {documentId : Json}
    {plan : Snapshot → Except Failure (List Edit)} {next : Snapshot → Agenda α}
    {calls : List StoreEvent} {result : Except Failure α}
    (h : Conducts options documentId (.step plan next) calls result) {documents : Nat → Json}
    {n : Nat} (hserved : Served documents n calls) {s : Snapshot}
    (hread : Snapshot.ofDocument (documents n) documentId options.tabId = .ok s)
    {edits : List Edit} (hplan : plan s = .ok edits) (hedits : edits ≠ []) :
    ∃ reply rest, calls = .fetch documentId (.ok (documents n)) ::
        .apply documentId edits s.revision (.ok reply) :: rest ∧
      Served documents (n + 1) rest ∧ Conducts options documentId (next s) rest result := by
  rcases h.step_inv with ⟨e, rfl, -⟩ | ⟨document, later, rfl, hdocument⟩
  · exact absurd (served_fetch.1 hserved).1 (by simp)
  obtain ⟨hanswer, hlater⟩ := served_fetch.1 hserved
  obtain rfl := Except.ok.inj hanswer
  rcases (conducts_read_iff hread).1 h with
    ⟨e, he, -⟩ | ⟨hempty, -⟩ | ⟨edits', hplan', -, ⟨e, rfl, -⟩ | ⟨reply, rest, rfl, hnext⟩⟩
  · exact absurd (hplan.symm.trans he) (by simp)
  · exact absurd (Except.ok.inj (hplan.symm.trans hempty)) hedits
  · obtain ⟨⟨reply, hreply⟩, -⟩ := served_apply.1 hlater
    exact absurd hreply (by simp)
  · obtain rfl := Except.ok.inj (hplan.symm.trans hplan')
    exact ⟨reply, rest, rfl, (served_apply.1 hlater).2, hnext⟩

/-- The section markers of a snapshot. -/
def Snapshot.sectionMarkers (s : Snapshot) : List SectionMarker :=
  (TemplateScan.ofLinear s.linear).sectionMarkers

namespace Template

/-- The section marker at a place stands from `start` up to `stop` in a document, under its name. -/
def StandsIn (document documentId : Json) (ordinal : Nat) (name : Text) (start stop : Int) : Prop :=
  ∃ s, Snapshot.ofDocument document documentId .null = .ok s ∧
    markerRange s ordinal name = .ok (start, stop)

/-- The first table that stands directly in the body of a document and starts where the table of a
geometry does has the indices of that table. -/
def HasTable (document documentId : Json) (g : TableGeometry) : Prop :=
  ∃ s t, Snapshot.ofDocument document documentId .null = .ok s ∧
    s.body.tables.find? (·.start.same (.int g.tableStart)) = some t ∧ t.Alike g.toTable

/-- The documents that the stage of a marker reads are as predicted from the one that was read at
first. The marker stands where it stood, until its table is inserted; then it is pushed back by the
size of the table, and the table stands in front of it. -/
structure StageForeseen (documentId : Json) (ordinal : Nat) (name : Text) (layout : TableLayout)
    (first before after : Json) (start stop : Int) (g : TableGeometry) : Prop where
  origin : StandsIn first documentId ordinal name start stop
  geometry : TableGeometry.read (.int start) layout.rowCount layout.columnCount = .ok g
  unmoved : StandsIn before documentId ordinal name start stop
  pushed : StandsIn after documentId ordinal name (start + g.size) (stop + g.size)
  inserted : HasTable after documentId g

/-- The documents that are read while section markers are rendered are as predicted. Each marker
that has data takes two of them, from number `n` on. -/
def Foreseen (documentId : Json) (sections : SectionData) (documents : Nat → Json) :
    Nat → List (SectionMarker × Nat) → Prop
  | _, [] => True
  | n, (marker, ordinal) :: rest =>
    match selectSection marker sections with
    | .ok (.ok data) =>
      (∃ start stop g, StageForeseen documentId ordinal marker.name data.layout (documents 0)
        (documents n) (documents (n + 1)) start stop g) ∧
      Foreseen documentId sections documents (n + 2) rest
    | _ => Foreseen documentId sections documents n rest

section Foreseen

variable {documentId : Json} {sections : SectionData} {documents : Nat → Json} {n : Nat}
  {s : Snapshot} {m : SectionMarker} {ordinal : Nat} {markers : List (SectionMarker × Nat)}

theorem markerRange_of_place (h : s.sectionMarkers[ordinal]? = some m) {start stop : Int} :
    markerRange s ordinal m.name = .ok (start, stop) ↔
      ∃ first last, s.range (.int m.start) (.int m.stop) = .ok (first, last) ∧
        first.index = start ∧ last.index = stop := by
  have hat : markerAt s ordinal m.name = .ok m := by
    rw [Snapshot.sectionMarkers] at h
    rw [markerAt, h]
    exact if_pos rfl
  simp only [markerRange, hat, bind_eq_ok_iff, liftM_engine_eq_ok_iff, pure_eq_ok_iff,
    Except.ok.injEq, exists_eq_left', Prod.exists, Prod.mk.injEq]

/-- Each marker that gets a table has a range in the document that was read at first. -/
theorem Foreseen.exists_standsIn (h : Foreseen documentId sections documents n markers)
    (hmem : (m, ordinal) ∈ markers) {data : Section}
    (hselect : selectSection m sections = .ok (.ok data)) :
    ∃ start stop, StandsIn (documents 0) documentId ordinal m.name start stop := by
  induction markers generalizing n with
  | nil => exact absurd hmem List.not_mem_nil
  | cons entry rest ih =>
    obtain ⟨marker, place⟩ := entry
    rw [Foreseen] at h
    rcases List.mem_cons.1 hmem with heq | hmem
    · obtain ⟨rfl, rfl⟩ := Prod.mk.inj heq
      rw [hselect] at h
      obtain ⟨⟨start, stop, g, hstage⟩, -⟩ := h
      exact ⟨start, stop, hstage.origin⟩
    · split at h
      · exact ih h.2 hmem
      · exact ih h hmem

/-- The batches of a stage are those that are planned for its marker at once. -/
theorem StageForeseen.plans {name : Text} {layout : TableLayout} {first before after : Json}
    {start stop : Int} {g : TableGeometry}
    (h : StageForeseen documentId ordinal name layout first before after start stop g)
    {edits : List Edit} (hplan : planMarkerTable (.int start) (.int stop) layout = .ok edits) :
    ∃ s s' insert fill, Snapshot.ofDocument before documentId .null = .ok s ∧
      Snapshot.ofDocument after documentId .null = .ok s' ∧
      planInsertion s ordinal name layout = .ok insert ∧
      planInsertedAt s s' ordinal name layout = .ok fill ∧ edits = insert ++ fill := by
  obtain ⟨g', fill, hg, hfill, rfl⟩ := planMarkerTable_inv hplan
  obtain rfl := Except.ok.inj (h.geometry.symm.trans hg)
  obtain ⟨s, hread, hplace⟩ := h.unmoved
  obtain ⟨s', hread', hpushed⟩ := h.pushed
  obtain ⟨_, t, hagain, hfind, halike⟩ := h.inserted
  obtain rfl := Except.ok.inj (hread'.symm.trans hagain)
  refine ⟨s, s', [.insertTable (.int start) layout.rowCount layout.columnCount], fill, hread,
    hread', ?_, ?_, rfl⟩
  · rw [planInsertion, hplace]
    rfl
  have hat : s'.tableAt (.int (TableGeometry.startAfter start)) = .ok (some t) := by
    rw [TableGeometry.tableStart, insertionIndex_of_read hg] at hfind
    exact tableAt_of_find? hfind
  calc planInsertedAt s s' ordinal name layout
      = planInserted s' ordinal name layout start := by rw [planInsertedAt, hplace]; rfl
    _ = planFilling s' ordinal name layout t := planInserted_of_tableAt hat
    _ = planTableFill t layout (some (.int (start + g.size), .int (stop + g.size))) := by
        rw [planFilling, hpushed]
        rfl
    _ = .ok fill := by rw [halike.planTableFill_eq, hfill]

/-- Work on section markers sends what is planned for them at once, if the documents that are read
are as predicted. -/
theorem appliedBatches_markersAgenda {minPadding : Json}
    (hs : Snapshot.ofDocument (documents 0) documentId .null = .ok s)
    (hplaces : ∀ m k, (m, k) ∈ markers → s.sectionMarkers[k]? = some m)
    (hforeseen : Foreseen documentId sections documents n markers) {calls : List StoreEvent}
    (hserved : Served documents n calls) {result : Except Failure (List Text × List SkippedSection)}
    (h : Conducts { minPadding } documentId (markersAgenda {} sections markers) calls result)
    {plan : SectionTablePlan} (hplan : planMarkers sections s (markers.map Prod.fst) = .ok plan) :
    result = .ok (plan.rendered, plan.skipped) ∧ (appliedBatches calls).flatten = plan.edits := by
  induction markers generalizing n calls result plan with
  | nil =>
    obtain rfl := Except.ok.inj hplan
    rw [markersAgenda] at h
    cases h
    exact ⟨rfl, rfl⟩
  | cons entry rest ih =>
    obtain ⟨marker, ordinal⟩ := entry
    have hrest : ∀ m k, (m, k) ∈ rest → s.sectionMarkers[k]? = some m :=
      fun m k hmem => hplaces m k (List.mem_cons_of_mem _ hmem)
    obtain ⟨plan', hplan', ⟨skipped, hselect, rfl⟩ |
      ⟨data, first, last, edits, hselect, hrange, htable, rfl⟩⟩ := planMarkers_cons hplan
    · rw [markersAgenda, hselect] at h
      rw [Foreseen, hselect] at hforeseen
      obtain ⟨r, hr, rfl⟩ := h.of_map
      obtain ⟨rfl, hsent⟩ := ih hrest hforeseen hserved hr hplan'
      exact ⟨rfl, hsent⟩
    · rw [markersAgenda, hselect] at h
      rw [Foreseen, hselect] at hforeseen
      obtain ⟨⟨start, stop, g, hstage⟩, hlater⟩ := hforeseen
      -- the plan is for the range in which the first document has the marker
      obtain ⟨s₀, hs₀, hplace⟩ := hstage.origin
      obtain rfl := Except.ok.inj (hs.symm.trans hs₀)
      obtain ⟨_, _, hrange', rfl, rfl⟩ :=
        (markerRange_of_place (hplaces _ _ List.mem_cons_self)).1 hplace
      obtain ⟨rfl, rfl⟩ := Prod.mk.inj (Except.ok.inj (hrange.symm.trans hrange'))
      obtain ⟨before, after, insert, fill, hbefore, hafter, hinsert, hfill, rfl⟩ :=
        hstage.plans htable
      obtain ⟨_, _, rfl, hserved', hsecond⟩ := h.step_served hserved hbefore hinsert
        (isInsertion_of_planInsertion hinsert).ne_nil
      obtain ⟨_, calls, rfl, hserved'', hothers⟩ := hsecond.step_served hserved' hafter hfill
        (isFilling_of_planInsertedAt hfill).ne_nil
      obtain ⟨r, hr, rfl⟩ := hothers.of_map
      obtain ⟨rfl, hsent⟩ := ih hrest hlater hserved'' hr hplan'
      refine ⟨rfl, ?_⟩
      simp only [appliedBatches_fetch, appliedBatches_apply, List.flatten_cons, hsent,
        List.append_assoc]

end Foreseen

/-- Planning looks at the text and the revision of a snapshot only. -/
theorem planMarkers_congr {sections : SectionData} {s s' : Snapshot}
    (hlinear : s'.linear = s.linear) (hrevision : s'.revision = s.revision)
    (markers : List SectionMarker) :
    planMarkers sections s' markers = planMarkers sections s markers := by
  have hrange : ∀ start stop, s'.range start stop = s.range start stop := by
    intro start stop
    unfold Snapshot.range Snapshot.source Snapshot.checkRevision
    rw [hlinear, hrevision]
  induction markers with
  | nil => rfl
  | cons m rest ih => simp only [planMarkers, hrange, ih]

/-- **Rendering in stages sends what is planned as one batch**: if the store never fails, and each
marker that gets a table is found where the first document has it before its table is inserted, and
pushed back by the predicted table after that, then the work ends well, and the edits that were sent
are those that are planned from the first document at once. They can be planned if the sections are
made of texts. -/
theorem renderSections_eq_planSectionTables {minPadding documentId ownId : Json}
    {sections : SectionData} {events : List StoreEvent} {result : Except Failure RenderedSections}
    {documents : Nat → Json} {s : Snapshot} (hid : Store.checkId documentId = .ok ())
    (hrun : Action.Runs (renderSections { minPadding } documentId sections) events result)
    (hserved : Served documents 0 events)
    (hs : Snapshot.ofDocument (documents 0) ownId .null = .ok s)
    (hforeseen : Foreseen documentId sections documents 0 s.sectionMarkers.zipIdx.reverse) :
    (∀ plan, planSectionTables sections s = .ok plan →
      ∃ r, result = .ok r ∧ r.rendered = plan.rendered ∧ r.skipped = plan.skipped ∧
        (appliedBatches events).flatten = plan.edits) ∧
    ((∀ name data, sections.get? name = some (some data) → data.Typed) →
      ∃ plan, planSectionTables sections s = .ok plan) := by
  -- the id by which the document is asked for makes no difference
  obtain ⟨s', hs', hlinear, hrevision⟩ := Snapshot.exists_ofDocument hs documentId
  have hmarkers : s'.sectionMarkers = s.sectionMarkers := by
    rw [Snapshot.sectionMarkers, hlinear, Snapshot.sectionMarkers]
  have hplan_eq : planSectionTables sections s =
      planMarkers sections s' (s.sectionMarkers.zipIdx.reverse.map Prod.fst) := by
    rw [List.map_reverse, List.zipIdx_map_fst, planMarkers_congr hlinear hrevision]
    rfl
  have hplaces : ∀ m k, (m, k) ∈ s.sectionMarkers.zipIdx.reverse →
      s'.sectionMarkers[k]? = some m := by
    intro m k hmem
    rw [hmarkers]
    exact List.mk_mem_zipIdx_iff_getElem?.1 (List.mem_reverse.1 hmem)
  rw [hplan_eq]
  constructor
  · intro plan hplan
    have hlocked := conducts_renderSections hrun
    rw [Locked, hid] at hlocked
    obtain ⟨calls, hcalls, rfl⟩ := hlocked
    have hserved' : Served documents 0 calls := Served.of_append hserved
    -- the first document is read to find the markers; the first of them goes on from there
    obtain ⟨work, hwork, hsent, hserved''⟩ : ∃ work, Conducts { minPadding } documentId
        (markersAgenda {} sections s'.sectionMarkers.zipIdx.reverse) work
          (result.map RenderedSections.report) ∧
        appliedBatches work = appliedBatches calls ∧ Served documents 0 work := by
      rcases hcalls.afterReading_inv with
        ⟨answer, e, rfl, hread, -⟩ | ⟨document, rest, s'', rfl, hread, hwork⟩
      · obtain ⟨rfl, -⟩ := served_fetch.1 hserved'
        exact absurd (hs'.symm.trans hread) (by simp)
      · obtain rfl := Except.ok.inj (served_fetch.1 hserved').1
        obtain rfl := Except.ok.inj (hs'.symm.trans hread)
        rcases hwork with hwork | ⟨rfl, hwork⟩
        · exact ⟨_, hwork, rfl, hserved'⟩
        · exact ⟨[], hwork, rfl, trivial⟩
    rw [hmarkers] at hwork
    obtain ⟨hresult, hedits⟩ :=
      appliedBatches_markersAgenda hs' hplaces hforeseen hserved'' hwork hplan
    rw [appliedBatches_locked, ← hsent]
    obtain ⟨r, rfl, hreport⟩ := map_eq_ok_iff.1 hresult
    obtain ⟨hrendered, hskipped⟩ := Prod.mk.inj hreport
    exact ⟨r, rfl, hrendered, hskipped, hedits⟩
  · intro htyped
    refine exists_planMarkers_of_ranges htyped fun m hm data hselect => ?_
    obtain ⟨⟨m, k⟩, hmem, rfl⟩ := List.mem_map.1 hm
    obtain ⟨start, stop, s'', hread, hplace⟩ := hforeseen.exists_standsIn hmem hselect
    obtain rfl := Except.ok.inj (hs'.symm.trans hread)
    obtain ⟨first, last, hrange, -⟩ := (markerRange_of_place (hplaces m k hmem)).1 hplace
    exact ⟨_, hrange⟩

/-- A filled table of two rows and two columns, as data. -/
def filledTableData (start : Int) : Json :=
  tableData start (start + 15)
    [rowData (start + 1) (start + 5) (start + 7) [lineData (start + 3) (start + 5) "T\n"]
        [lineData (start + 6) (start + 7) "\n"],
      rowData (start + 7) (start + 11) (start + 14) [lineData (start + 9) (start + 11) "k\n"]
        [lineData (start + 12) (start + 14) "v\n"]]

/-- What is read one after another while a document of three lines is rendered, in which a marker
without data stands between two markers of one name. -/
def threeLines : Nat → Json
  | 0 => documentData "rev-1" [lineData 1 15 "[[section:S]]\n", lineData 15 29 "[[section:A]]\n",
      lineData 29 43 "[[section:S]]\n"]
  | 1 => documentData "rev-2" [lineData 1 15 "[[section:S]]\n", lineData 15 29 "[[section:A]]\n",
      lineData 29 30 "\n", emptyTableData 30, lineData 42 56 "[[section:S]]\n"]
  | 2 => documentData "rev-3" [lineData 1 15 "[[section:S]]\n", lineData 15 29 "[[section:A]]\n",
      lineData 29 30 "\n", filledTableData 30, lineData 45 46 "\n"]
  | _ => documentData "rev-4" [lineData 1 2 "\n", emptyTableData 2,
      lineData 14 28 "[[section:S]]\n", lineData 28 42 "[[section:A]]\n", lineData 42 43 "\n",
      filledTableData 43, lineData 58 59 "\n"]

/-- A run over the section markers of this document, which is read at every other request. -/
def runOverLines : List StoreEvent × Except Failure RenderedSections :=
  (ExceptT.run (renderSections {} (.str "doc-1") pairSection)).answered
    (fun n => answerFrom (threeLines (n / 2)) (threeLines (n / 2)) n) 0

theorem served_runOverLines : Served threeLines 0 runOverLines.1 := by
  cbv
  exact ⟨⟨_, rfl⟩, ⟨_, rfl⟩, ⟨_, rfl⟩, ⟨_, rfl⟩, trivial⟩

theorem hasTable_of_find? {document documentId : Json} {g : TableGeometry}
    (h : (fun s : Snapshot => s.body.tables.find? (·.start.same (.int g.tableStart))) <$>
      Snapshot.ofDocument document documentId .null = .ok (some g.toTable)) :
    HasTable document documentId g := by
  obtain ⟨s, hread, hfind⟩ := map_eq_ok_iff.1 h
  exact ⟨s, _, hread, hfind, .refl _⟩

/-- The layout of the section in `pairSection`. -/
abbrev pairLayout : TableLayout :=
  Section.layout ⟨.text ['T'], [⟨.text ['k'], .text ['v']⟩]⟩

theorem stageForeseen_lastLine : StageForeseen (.str "doc-1") 2 ['S'] pairLayout (threeLines 0)
    (threeLines 0) (threeLines 1) 29 42 ⟨29, 2, 2⟩ := by
  have hplace : StandsIn (threeLines 0) (.str "doc-1") 2 ['S'] 29 42 := map_eq_ok_iff.1 (by cbv)
  exact ⟨hplace, rfl, hplace, map_eq_ok_iff.1 (by cbv), hasTable_of_find? (by cbv)⟩

theorem stageForeseen_firstLine : StageForeseen (.str "doc-1") 0 ['S'] pairLayout (threeLines 0)
    (threeLines 2) (threeLines 3) 1 14 ⟨1, 2, 2⟩ :=
  ⟨map_eq_ok_iff.1 (by cbv), rfl, map_eq_ok_iff.1 (by cbv), map_eq_ok_iff.1 (by cbv),
    hasTable_of_find? (by cbv)⟩

theorem renderSections_eq_threeLines :
    Store.checkId (.str "doc-1") = .ok () ∧
    Action.Runs (renderSections {} (.str "doc-1") pairSection) runOverLines.1 runOverLines.2 ∧
    Served threeLines 0 runOverLines.1 ∧
    ∃ s, Snapshot.ofDocument (threeLines 0) (.str "") .null = .ok s ∧
      Foreseen (.str "doc-1") pairSection threeLines 0 s.sectionMarkers.zipIdx.reverse ∧
      ∃ plan r, planSectionTables pairSection s = .ok plan ∧ runOverLines.2 = .ok r ∧
        r.rendered = [['S'], ['S']] ∧ (appliedBatches runOverLines.1).flatten = plan.edits := by
  have hmarkers : (fun s : Snapshot => s.sectionMarkers.zipIdx.reverse) <$>
      Snapshot.ofDocument (threeLines 0) (.str "") .null =
        .ok [(⟨['S'], "[[section:S]]".toList, 28, 41⟩, 2),
          (⟨['A'], "[[section:A]]".toList, 14, 27⟩, 1),
          (⟨['S'], "[[section:S]]".toList, 0, 13⟩, 0)] := by
    cbv
  obtain ⟨s, hs, hlisted⟩ := map_eq_ok_iff.1 hmarkers
  have hforeseen :
      Foreseen (.str "doc-1") pairSection threeLines 0 s.sectionMarkers.zipIdx.reverse := by
    rw [hlisted]
    exact ⟨⟨29, 42, _, stageForeseen_lastLine⟩, ⟨1, 14, _, stageForeseen_firstLine⟩, trivial⟩
  have hrun : Action.Runs (renderSections {} (.str "doc-1") pairSection) runOverLines.1
      runOverLines.2 := Program.runs_answered _ 0 _
  obtain ⟨hsends, hexists⟩ :=
    renderSections_eq_planSectionTables rfl hrun served_runOverLines hs hforeseen
  obtain ⟨plan, hplan⟩ := hexists fun _ _ => typed_of_singleton rfl ⟨⟨_, rfl⟩, by simp⟩
  obtain ⟨r, hr, -, -, hedits⟩ := hsends plan hplan
  have hrendered : RenderedSections.rendered <$> runOverLines.2 = .ok [['S'], ['S']] := by cbv
  rw [hr] at hrendered
  exact ⟨rfl, hrun, served_runOverLines, s, hs, hforeseen, plan, r, hplan, hr,
    Except.ok.inj hrendered, hedits⟩

end Template

end DocTemplate
