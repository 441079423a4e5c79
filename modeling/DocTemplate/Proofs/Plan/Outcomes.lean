import DocTemplate.Proofs.Plan.SectionTables

/-!
# What becomes of section markers

A section marker gets a table if there is complete data under its name: a title that is not blank
and a pair of which neither the key nor the value is blank. Otherwise it is skipped, and the entry
for it is an error if there is no data at all. What becomes of a marker depends on its name and the
data only, so all markers of a text can be sorted out before anything is planned
(`markerReport`, `sortedOut_markerReport`).

`report_planMarkers` shows that a plan reports just this, by induction along the markers from the
last one to the first: each of them is put behind what is reported of those in front of it.
-/

namespace DocTemplate

/-! ## Complete data -/

/-- The entry is a text that is not blank. -/
def Entry.HasText (e : Entry) : Prop :=
  ∃ t, e = .text t ∧ t.blank = false

/-- Neither the key nor the value of the pair is blank. -/
structure KeyValue.Complete (p : KeyValue) : Prop where
  key : p.key.HasText
  value : p.value.HasText

/-- The title of the section is not blank, and one of its pairs is complete. -/
structure Section.Complete (data : Section) : Prop where
  title : data.title.HasText
  pair : ∃ p ∈ data.pairs, p.Complete

theorem Entry.isBlank_eq_ok_iff {e : Entry} {b : Bool} :
    e.isBlank = .ok b ↔ ∃ t, e = .text t ∧ t.blank = b := by
  unfold Entry.isBlank
  cases e with
  | text t => simp
  | data j => simp

theorem Entry.not_hasText_of_isBlank {e : Entry} (h : e.isBlank = .ok true) : ¬ e.HasText := by
  intro htext
  have hblank := Entry.isBlank_eq_ok_iff.2 htext
  rw [h] at hblank
  exact Bool.noConfusion (Except.ok.inj hblank)

theorem Section.hasCompletePair_iff {pairs : List KeyValue} {complete : Bool}
    (h : Section.hasCompletePair pairs = .ok complete) :
    complete = true ↔ ∃ p ∈ pairs, p.Complete := by
  induction pairs with
  | nil =>
    obtain rfl := Except.ok.inj h
    simp
  | cons p rest ih =>
    rw [Section.hasCompletePair] at h
    obtain ⟨key, hkey, h⟩ := bind_eq_ok_iff.1 h
    cases key with
    | true =>
      have hp : ¬ p.Complete := fun hp => Entry.not_hasText_of_isBlank hkey hp.key
      rw [ih h, List.exists_mem_cons_iff, or_iff_right hp]
    | false =>
      obtain ⟨value, hvalue, h⟩ := bind_eq_ok_iff.1 h
      cases value with
      | true =>
        have hp : ¬ p.Complete := fun hp => Entry.not_hasText_of_isBlank hvalue hp.value
        rw [ih h, List.exists_mem_cons_iff, or_iff_right hp]
      | false =>
        obtain rfl := Except.ok.inj h
        have hp : p.Complete :=
          ⟨Entry.isBlank_eq_ok_iff.1 hkey, Entry.isBlank_eq_ok_iff.1 hvalue⟩
        exact iff_of_true rfl ⟨p, List.mem_cons_self, hp⟩

theorem Section.hasContent_iff {data : Section} {content : Bool}
    (h : data.hasContent = .ok content) : content = true ↔ data.Complete := by
  rw [Section.hasContent] at h
  obtain ⟨title, htitle, h⟩ := bind_eq_ok_iff.1 h
  cases title with
  | true =>
    obtain rfl := Except.ok.inj h
    refine iff_of_false Bool.false_ne_true fun hdata => ?_
    exact Entry.not_hasText_of_isBlank htitle hdata.title
  | false =>
    rw [Section.hasCompletePair_iff h]
    exact ⟨fun hpair => ⟨Entry.isBlank_eq_ok_iff.1 htitle, hpair⟩, fun hdata => hdata.pair⟩

/-! ## Sorting out markers -/

/-- Whether there is usable data for a marker, so that it gets a table. -/
def getsTable (sections : SectionData) (m : SectionMarker) : Bool :=
  match selectSection m sections with
  | .ok (.ok _) => true
  | _ => false

/-- The entry for a marker that gets no table. -/
def skipOf (sections : SectionData) (m : SectionMarker) : Option SkippedSection :=
  match selectSection m sections with
  | .ok (.error skipped) => some skipped
  | _ => none

/-- What is reported of some markers: the names of those that get a table, and the entries for the
others. -/
def markerReport (sections : SectionData) (markers : List SectionMarker) :
    List Text × List SkippedSection :=
  ((markers.filter (getsTable sections)).map (·.name), markers.filterMap (skipOf sections))

/-- The entry for a skipped marker has its name. It is an error if and only if there is no data
under this name, and then it lists the names that there are data for. -/
structure SkippedFor (sections : SectionData) (m : SectionMarker) (entry : SkippedSection) :
    Prop where
  name_eq : entry.name = m.name
  error_eq : entry.error? =
    if (sections.get? m.name).join.isNone then some (.noData m.name sections.keys) else none

/-- Markers are sorted out by their data: those with complete data are listed by name, those without
have an entry each, both in the order of the markers and one for each marker. -/
structure SortedOut (sections : SectionData) (markers : List SectionMarker) (rendered : List Text)
    (skipped : List SkippedSection) : Prop where
  getsTable_iff : ∀ m ∈ markers, getsTable sections m = true ↔
    ∃ data, sections.get? m.name = some (some data) ∧ data.Complete
  rendered_eq : rendered = (markers.filter (getsTable sections)).map (·.name)
  skipped_for : List.Forall₂ (SkippedFor sections) (markers.filter fun m => !getsTable sections m)
    skipped

section SortingOut

variable {sections : SectionData} {m : SectionMarker} {markers : List SectionMarker}

/-- What becomes of a marker, if its data can be looked at. -/
theorem selectSection_inv {selected : Except SkippedSection Section}
    (h : selectSection m sections = .ok selected) :
    ((sections.get? m.name).join = none ∧ selected = .error ⟨m.name, .noData sections.keys⟩) ∨
      ∃ data, sections.get? m.name = some (some data) ∧
        (data.Complete ∧ selected = .ok data ∨
          ¬ data.Complete ∧ selected = .error ⟨m.name, .incomplete⟩) := by
  rw [selectSection] at h
  cases hget : (sections.get? m.name).join with
  | none =>
    rw [hget] at h
    exact .inl ⟨rfl, (Except.ok.inj h).symm⟩
  | some data =>
    rw [hget] at h
    obtain ⟨content, hcontent, h⟩ := bind_eq_ok_iff.1 h
    refine .inr ⟨data, Option.join_eq_some_iff.1 hget, ?_⟩
    rw [← Section.hasContent_iff hcontent]
    cases content with
    | true => exact .inl ⟨rfl, (Except.ok.inj h).symm⟩
    | false => exact .inr ⟨Bool.false_ne_true, (Except.ok.inj h).symm⟩

theorem getsTable_of_ok {data : Section} (h : selectSection m sections = .ok (.ok data)) :
    getsTable sections m = true := by
  rw [getsTable, h]

theorem not_getsTable_of_error {skipped : SkippedSection}
    (h : selectSection m sections = .ok (.error skipped)) : ¬ getsTable sections m = true := by
  rw [getsTable, h]
  exact Bool.false_ne_true

theorem getsTable_iff_complete {selected : Except SkippedSection Section}
    (h : selectSection m sections = .ok selected) :
    getsTable sections m = true ↔
      ∃ data, sections.get? m.name = some (some data) ∧ data.Complete := by
  rcases selectSection_inv h with
    ⟨hnone, rfl⟩ | ⟨data, hget, ⟨hdata, rfl⟩ | ⟨hdata, rfl⟩⟩
  · refine iff_of_false (not_getsTable_of_error h) ?_
    rintro ⟨data, hget, -⟩
    rw [hget] at hnone
    exact absurd hnone (by simp)
  · exact iff_of_true (getsTable_of_ok h) ⟨data, hget, hdata⟩
  · refine iff_of_false (not_getsTable_of_error h) ?_
    rintro ⟨data', hget', hdata'⟩
    obtain rfl := Option.some.inj (Option.some.inj (hget.symm.trans hget'))
    exact hdata hdata'

theorem skippedFor_of_error {skipped : SkippedSection}
    (h : selectSection m sections = .ok (.error skipped)) : SkippedFor sections m skipped := by
  rcases selectSection_inv h with
    ⟨hnone, hskip⟩ | ⟨data, hget, ⟨-, hskip⟩ | ⟨-, hskip⟩⟩
  · obtain rfl := Except.error.inj hskip
    exact ⟨rfl, by rw [hnone]; rfl⟩
  · exact absurd hskip (by simp)
  · obtain rfl := Except.error.inj hskip
    exact ⟨rfl, by rw [hget]; rfl⟩

/-- A marker at the end is the last one of which something is reported. -/
theorem markerReport_concat (markers : List SectionMarker) (m : SectionMarker) :
    markerReport sections (markers ++ [m]) =
      ((markerReport sections markers).1 ++ (markerReport sections [m]).1,
        (markerReport sections markers).2 ++ (markerReport sections [m]).2) := by
  simp only [markerReport, List.filter_append, List.map_append, List.filterMap_append]

theorem markerReport_of_ok {data : Section} (h : selectSection m sections = .ok (.ok data)) :
    markerReport sections [m] = ([m.name], []) := by
  have hskip : skipOf sections m = none := by rw [skipOf, h]
  rw [markerReport, List.filter_cons_of_pos (getsTable_of_ok h), List.filterMap_cons_none hskip]
  rfl

theorem markerReport_of_error {skipped : SkippedSection}
    (h : selectSection m sections = .ok (.error skipped)) :
    markerReport sections [m] = ([], [skipped]) := by
  have hskip : skipOf sections m = some skipped := by rw [skipOf, h]
  rw [markerReport, List.filter_cons_of_neg (not_getsTable_of_error h),
    List.filterMap_cons_some hskip]
  rfl

/-- Markers whose data can be looked at are sorted out by what is reported of them. -/
theorem sortedOut_markerReport
    (h : ∀ m ∈ markers, ∃ selected, selectSection m sections = .ok selected) :
    SortedOut sections markers (markerReport sections markers).1
      (markerReport sections markers).2 where
  getsTable_iff := by
    intro m hm
    obtain ⟨selected, hselect⟩ := h m hm
    exact getsTable_iff_complete hselect
  rendered_eq := rfl
  skipped_for := by
    show List.Forall₂ _ _ (markers.filterMap (skipOf sections))
    induction markers with
    | nil => exact .nil
    | cons m rest ih =>
      have hrest := ih fun m' hm' => h m' (List.mem_cons_of_mem _ hm')
      obtain ⟨selected, hselect⟩ := h m List.mem_cons_self
      cases selected with
      | error skipped =>
        have hskip : skipOf sections m = some skipped := by rw [skipOf, hselect]
        rw [List.filterMap_cons_some hskip,
          List.filter_cons_of_pos (by simp [not_getsTable_of_error hselect])]
        exact .cons (skippedFor_of_error hselect) hrest
      | ok data =>
        have hskip : skipOf sections m = none := by rw [skipOf, hselect]
        rw [List.filterMap_cons_none hskip,
          List.filter_cons_of_neg (by simp [getsTable_of_ok hselect])]
        exact hrest

end SortingOut

/-! ## Plans -/

/-- The edits for one marker: a table is inserted at the beginning of its range, what follows
inserts no table and deletes nothing, and at last a range is deleted. -/
def IsTableBatch (s : Snapshot) (m : SectionMarker) (edits : List Edit) : Prop :=
  ∃ start stop rows columns filling first last,
    s.linear.range (.int m.start) (.int m.stop) = .ok (start, stop) ∧
    edits = .insertTable (.int start.index) rows columns ::
      (filling ++ [.deleteRange first last]) ∧
    ∀ e ∈ filling, ¬ e.IsDeletion ∧ ∀ index rows columns, e ≠ .insertTable index rows columns

/-- The edits that fill a table insert no further table. -/
theorem Edit.Fills.ne_insertTable {table : Table} {e : Edit} (h : e.Fills table)
    (index rows columns : Json) : e ≠ .insertTable index rows columns := by
  cases h <;> exact Edit.noConfusion

section Plans

variable {sections : SectionData} {s : Snapshot} {m : SectionMarker}

theorem isTableBatch_planMarkerTable {start stop : Anchor} {layout : TableLayout}
    {edits : List Edit}
    (hrange : s.linear.range (.int m.start) (.int m.stop) = .ok (start, stop))
    (h : planMarkerTable (.int start.index) (.int stop.index) layout = .ok edits) :
    IsTableBatch s m edits := by
  obtain ⟨g, fill, -, hfill, rfl⟩ := planMarkerTable_inv h
  obtain ⟨-, filling, done, -, rfl, hfills, -⟩ := planTableFill_split hfill
  exact ⟨start, stop, _, _, filling, _, _, hrange, rfl, fun e he =>
    ⟨(hfills e he).not_isDeletion, (hfills e he).ne_insertTable⟩⟩

/-- A plan for markers that are listed from the last one to the first reports what becomes of them,
and has the edits for one table for each of those that get one. -/
theorem report_planMarkers {markers : List SectionMarker} {plan : SectionTablePlan}
    (h : planMarkers sections s markers = .ok plan) :
    (plan.rendered, plan.skipped) = markerReport sections markers.reverse ∧
      (∀ m ∈ markers, ∃ selected, selectSection m sections = .ok selected) ∧
      ∃ batches, plan.edits = batches.flatten ∧
        List.Forall₂ (IsTableBatch s) (markers.filter (getsTable sections)) batches := by
  induction markers generalizing plan with
  | nil =>
    obtain rfl := Except.ok.inj h
    exact ⟨rfl, by simp, [], rfl, .nil⟩
  | cons m rest ih =>
    obtain ⟨plan', hplan', hcase⟩ := planMarkers_cons h
    obtain ⟨hreport, hselected, batches, hedits, hbatches⟩ := ih hplan'
    rw [List.reverse_cons, markerReport_concat, ← hreport]
    rcases hcase with ⟨skipped, hselect, rfl⟩ |
      ⟨data, start, stop, edits, hselect, hrange, htable, rfl⟩
    · refine ⟨?_, List.forall_mem_cons.2 ⟨⟨_, hselect⟩, hselected⟩, batches, hedits, ?_⟩
      · rw [markerReport_of_error hselect, List.append_nil]
      · rw [List.filter_cons_of_neg (not_getsTable_of_error hselect)]
        exact hbatches
    · refine ⟨?_, List.forall_mem_cons.2 ⟨⟨_, hselect⟩, hselected⟩, edits :: batches, ?_, ?_⟩
      · rw [markerReport_of_ok hselect, List.append_nil]
      · rw [List.flatten_cons, ← hedits]
      · rw [List.filter_cons_of_pos (getsTable_of_ok hselect)]
        exact .cons (isTableBatch_planMarkerTable (linear_range_of_range hrange) htable) hbatches

end Plans

end DocTemplate
