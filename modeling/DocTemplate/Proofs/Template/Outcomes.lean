import DocTemplate.Proofs.Plan.Deletions
import DocTemplate.Proofs.Template.Discipline

/-!
# What becomes of section markers, on both ways

Section tables can be planned as one batch (`planSectionTables`), or rendered in stages by requests
to a store (`renderSections`). Both sort out the section markers in the same way, the second one
those of the document that is read first: which documents are read later makes no difference,
because the agenda of the work is found out from the first one (`report_markersAgenda`, by induction
along its markers).
-/

namespace DocTemplate.Template

section Agendas

variable {style : LayoutStyle} {sections : SectionData} {options : FillOptions} {documentId : Json}
  {markers : List (SectionMarker × Nat)} {calls : List StoreEvent}
  {r : List Text × List SkippedSection}

/-- Work on section markers that ends well reports what becomes of them by their data. -/
theorem report_markersAgenda
    (h : Conducts options documentId (markersAgenda style sections markers) calls (.ok r)) :
    r = markerReport sections (markers.map Prod.fst).reverse ∧
      ∀ m ∈ markers.map Prod.fst, ∃ selected, selectSection m sections = .ok selected := by
  induction markers generalizing calls r with
  | nil =>
    obtain ⟨-, rfl⟩ := eq_of_conducts_markersAgenda_nil h
    exact ⟨rfl, by simp⟩
  | cons entry rest ih =>
    obtain ⟨marker, ordinal⟩ := entry
    rw [List.map_cons, List.reverse_cons, markerReport_concat]
    rcases conducts_markersAgenda_cons h with ⟨skipped, r', hselect, hrest, rfl⟩ |
      ⟨data, _, _, _, _, _, _, _, _, _, r', hselect, -, -, -, hrest, rfl⟩
    · obtain ⟨rfl, hselected⟩ := ih hrest
      refine ⟨?_, List.forall_mem_cons.2 ⟨⟨_, hselect⟩, hselected⟩⟩
      rw [markerReport_of_error hselect, List.append_nil]
    · obtain ⟨rfl, hselected⟩ := ih hrest
      refine ⟨?_, List.forall_mem_cons.2 ⟨⟨_, hselect⟩, hselected⟩⟩
      rw [markerReport_of_ok hselect, List.append_nil]

/-- A range of a snapshot can be found only if its revision equals itself. -/
theorem same_revision_of_planInsertion {s : Snapshot}
    (hlinear : s.linear = s.body.linear s.revision) {ordinal : Nat} {name : Text}
    {layout : TableLayout} {edits : List Edit}
    (h : planInsertion s ordinal name layout = .ok edits) : s.revision.same s.revision = true := by
  simp only [planInsertion, markerRange, bind_eq_ok_iff, liftM_engine_eq_ok_iff] at h
  obtain ⟨_, ⟨_, _, _, hrange, -⟩, -⟩ := h
  obtain ⟨_, hcheck, -⟩ := bind_eq_ok_iff.1 hrange
  rw [Snapshot.checkRevision, Snapshot.source, hlinear] at hcheck
  by_contra hdiffers
  exact absurd ((if_neg hdiffers).symm.trans hcheck) (by simp)

/-- Work on section markers that ends well has found the range of one of them in the document that
is read first, if any of them gets a table. -/
theorem same_revision_of_markersAgenda {s : Snapshot}
    (hlinear : s.linear = s.body.linear s.revision)
    (h : Conducts options documentId (markersAgenda style sections markers) calls (.ok r))
    (hread : ∀ document rest, calls = .fetch documentId (.ok document) :: rest →
      Snapshot.ofDocument document documentId options.tabId = .ok s)
    (hgets : ∃ m ∈ markers.map Prod.fst, getsTable sections m = true) :
    s.revision.same s.revision = true := by
  induction markers generalizing r with
  | nil =>
    obtain ⟨m, hm, -⟩ := hgets
    exact absurd hm List.not_mem_nil
  | cons entry rest ih =>
    rcases conducts_markersAgenda_cons h with ⟨skipped, r', hselect, hrest, rfl⟩ |
      ⟨data, document, s', insert, _, _, _, _, _, _, _, hselect, rfl, hread', hinsert, -, -⟩
    · refine ih hrest ?_
      obtain ⟨m, hm, hgets⟩ := hgets
      rcases List.mem_cons.1 hm with rfl | hm
      · exact absurd hgets (not_getsTable_of_error hselect)
      · exact ⟨m, hm, hgets⟩
    · obtain rfl := Except.ok.inj ((hread _ _ rfl).symm.trans hread')
      exact same_revision_of_planInsertion hlinear hinsert

end Agendas

/-- Section tables can be planned for sections of texts, if the revision of the snapshot equals
itself as soon as a marker gets a table. -/
theorem exists_planSectionTables {s : Snapshot} (hlinear : s.linear = s.body.linear s.revision)
    {sections : SectionData}
    (htyped : ∀ name data, sections.get? name = some (some data) → data.Typed)
    (hrevision : (∃ m ∈ (TemplateScan.ofLinear s.linear).sectionMarkers,
      getsTable sections m = true) → s.revision.same s.revision = true) :
    ∃ plan, planSectionTables sections s = .ok plan := by
  refine exists_planMarkers_of_ranges htyped fun m hm data hselect => ?_
  have hmem := List.mem_reverse.1 hm
  obtain ⟨_, _, _, -, -, hrange⟩ := range_of_marker hlinear (mem_sectionTokens.1 hmem)
  have hcheck : s.checkRevision s.linear (Json.int m.start) = .ok () := by
    rw [Snapshot.checkRevision, hlinear]
    exact if_pos (hrevision ⟨m, hmem, getsTable_of_ok hselect⟩)
  exact ⟨_, bind_eq_ok_iff.2 ⟨(), hcheck, hrange⟩⟩

/-- **Both ways to section tables sort out the markers alike**: a plan lists each section marker
either by name, exactly if there is complete data for it, or with the entry for a skipped one, and
has the edits of one table for each that is listed by name. Every run that renders section tables
and ends well lists the same markers as the plan for the document that it reads first, whatever is
read later. If the sections are made of texts, there is such a plan. -/
theorem sortedOut_sectionTables (sections : SectionData) :
    (∀ s plan, planSectionTables sections s = .ok plan →
      SortedOut sections (TemplateScan.ofLinear s.linear).sectionMarkers plan.rendered
        plan.skipped ∧
      ∃ batches, plan.edits = batches.flatten ∧
        List.Forall₂ (IsTableBatch s) (renderedMarkers sections s).reverse batches) ∧
    (∀ options documentId events r,
      Action.Runs (renderSections options documentId sections) events (.ok r) →
      ∃ document rest s,
        events = StoreEvent.acquire documentId :: .fetch documentId (.ok document) :: rest ∧
        Snapshot.ofDocument document documentId options.tabId = .ok s ∧
        SortedOut sections (TemplateScan.ofLinear s.linear).sectionMarkers r.rendered r.skipped ∧
        (∀ plan, planSectionTables sections s = .ok plan →
          r.rendered = plan.rendered ∧ r.skipped = plan.skipped) ∧
        ((∀ name data, sections.get? name = some (some data) → data.Typed) →
          ∃ plan, planSectionTables sections s = .ok plan)) ∧
    ((∀ name data, sections.get? name = some (some data) → data.Typed) →
      ∀ s : Snapshot, s.linear = s.body.linear s.revision → s.revision.same s.revision = true →
        ∃ plan, planSectionTables sections s = .ok plan) := by
  refine ⟨?_, ?_, fun htyped s hlinear hsame =>
    exists_planSectionTables hlinear htyped fun _ => hsame⟩
  · intro s plan hplan
    obtain ⟨hreport, hselected, batches, hedits, hbatches⟩ := report_planMarkers hplan
    rw [List.reverse_reverse] at hreport
    have hsorted := sortedOut_markerReport fun m hm => hselected m (List.mem_reverse.2 hm)
    rw [← hreport] at hsorted
    rw [List.filter_reverse] at hbatches
    exact ⟨hsorted, batches, hedits, hbatches⟩
  · intro options documentId events r hrun
    obtain ⟨calls, hcalls, rfl⟩ := (conducts_renderSections hrun).ok_inv
    rcases hcalls.afterReading_inv with ⟨_, e, -, -, he⟩ | ⟨document, rest, s, rfl, hread, hwork⟩
    · exact absurd he (by simp [Except.map])
    -- the first of the markers is rendered in the document that is read first
    obtain ⟨work, hwork, hfirst⟩ : ∃ work, Conducts options documentId
        (markersAgenda options.style sections
          (TemplateScan.ofLinear s.linear).sectionMarkers.zipIdx.reverse) work
          (.ok (RenderedSections.report r)) ∧
        ∀ document' rest', work = .fetch documentId (.ok document') :: rest' →
          Snapshot.ofDocument document' documentId options.tabId = .ok s := by
      rcases hwork with hwork | ⟨-, hwork⟩
      · refine ⟨_, hwork, fun document' rest' heq => ?_⟩
        obtain rfl := Except.ok.inj (StoreEvent.fetch_inj.1 (List.cons.inj heq).1).2
        exact hread
      · exact ⟨[], hwork, by simp⟩
    have hmarkers : (TemplateScan.ofLinear s.linear).sectionMarkers.zipIdx.reverse.map Prod.fst =
        (TemplateScan.ofLinear s.linear).sectionMarkers.reverse := by
      rw [List.map_reverse, List.zipIdx_map_fst]
    have hlinear := Snapshot.linear_ofDocument hread
    obtain ⟨hreport, hselected⟩ := report_markersAgenda hwork
    rw [hmarkers, List.reverse_reverse] at hreport
    refine ⟨document, _, s, rfl, hread, ?_, fun plan hplan => ?_, fun htyped => ?_⟩
    · have hsorted := sortedOut_markerReport fun m hm =>
        hselected m (hmarkers ▸ List.mem_reverse.2 hm)
      rwa [← hreport] at hsorted
    · obtain ⟨hplanned, -⟩ := report_planMarkers hplan
      rw [List.reverse_reverse, ← hreport] at hplanned
      obtain ⟨hrendered, hskipped⟩ := Prod.mk.inj hplanned
      exact ⟨hrendered.symm, hskipped.symm⟩
    · exact exists_planSectionTables hlinear htyped fun hgets =>
        same_revision_of_markersAgenda hlinear hwork hfirst (by simpa [hmarkers] using hgets)

/-- A plan and a run for a document with one section marker that has data, and one that has none. -/
theorem sortedOut_twoWays :
    (∃ plan, planSectionTables firstSection twoMarkers = .ok plan ∧ plan.rendered = [['A']] ∧
      SortedOut firstSection (TemplateScan.ofLinear twoMarkers.linear).sectionMarkers plan.rendered
        plan.skipped) ∧
    ∃ r s plan, Action.Runs (renderSections {} (.str "doc-1") pairSection)
        (runOver pageBefore pageAfter).1 (.ok r) ∧
      Snapshot.ofDocument pageBefore (.str "doc-1") .null = .ok s ∧
      planSectionTables pairSection s = .ok plan ∧ r.rendered = plan.rendered ∧
      r.skipped = plan.skipped ∧ r.rendered = [['S']] := by
  have htyped : ∀ name data, firstSection.get? name = some (some data) → data.Typed :=
    fun name data => typed_of_singleton rfl ⟨⟨_, rfl⟩, by simp⟩
  obtain ⟨hplans, -, hexists⟩ := sortedOut_sectionTables firstSection
  obtain ⟨plan, hplan⟩ := hexists htyped twoMarkers rfl rfl
  have hrendered : SectionTablePlan.rendered <$> planSectionTables firstSection twoMarkers =
      .ok [['A']] := by cbv
  rw [hplan] at hrendered
  have hreport : RenderedSections.rendered <$> (runOver pageBefore pageAfter).2 = .ok [['S']] := by
    cbv
  obtain ⟨r, hr, hnames⟩ := map_eq_ok_iff.1 hreport
  have hrun := runs_runOver pageBefore pageAfter
  rw [hr] at hrun
  obtain ⟨document, rest, s, hevents, hread, -, hsame, hplanned⟩ :=
    (sortedOut_sectionTables pairSection).2.1 {} _ _ r hrun
  obtain ⟨plan', hplan'⟩ := hplanned fun _ _ => typed_of_singleton rfl ⟨⟨_, rfl⟩, by simp⟩
  have hfetched : (runOver pageBefore pageAfter).1[1]? =
      some (.fetch (.str "doc-1") (.ok pageBefore)) := by cbv
  rw [hevents] at hfetched
  obtain rfl := Except.ok.inj (StoreEvent.fetch_inj.1 (Option.some.inj hfetched)).2
  obtain ⟨hrendered', hskipped'⟩ := hsame plan' hplan'
  exact ⟨⟨plan, hplan, Except.ok.inj hrendered, (hplans _ plan hplan).1⟩, r, s, plan', hrun, hread,
    hplan', hrendered', hskipped', hnames⟩

end DocTemplate.Template
