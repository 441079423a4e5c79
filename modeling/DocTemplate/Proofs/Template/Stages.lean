import DocTemplate.Proofs.Document.Tables
import DocTemplate.Proofs.Plan.TableFill
import DocTemplate.Proofs.Template.Runs
import DocTemplate.Template.SectionTables

/-!
# Stages of rendering

What a run over the section markers of a document consists of. Each marker that has data makes one
stage: the batch that inserts its table, a fetch, and the batch that is planned from what was
fetched. `MarkerRun` lists how far one stage can come. Whatever the answers are, every stage in a
run over all markers carries out the plan for one of them (`renderSections_inv`); the induction is
along the markers (`renderMarkers_inv`).
-/

namespace DocTemplate

namespace Template

/-- The batch that fills one table and deletes its marker. -/
def planFilling (snapshot : Snapshot) (ordinal : Nat) (name : Text) (layout : TableLayout)
    (table : Table) : Except Failure (List Edit) := do
  let (start, stop) ← markerRange snapshot ordinal name
  planTableFill table layout (some (.int start, .int stop))

section Plan

variable {snapshot : Snapshot} {ordinal : Nat} {name : Text} {layout : TableLayout} {table : Table}
  {index : Int} {edits : List Edit}

theorem planInserted_of_tableAt
    (h : snapshot.tableAt (.int (TableGeometry.startAfter index)) = .ok (some table)) :
    planInserted snapshot ordinal name layout index =
      planFilling snapshot ordinal name layout table := by
  rw [planInserted, h]
  rfl

theorem planInserted_of_tableAt_none
    (h : snapshot.tableAt (.int (TableGeometry.startAfter index)) = .ok none) :
    planInserted snapshot ordinal name layout index =
      .error (.engine (.tableNotFound (.int index) (.int snapshot.body.tables.length))) := by
  rw [planInserted, h]
  rfl

theorem planInserted_of_tableAt_error {f : Fault}
    (h : snapshot.tableAt (.int (TableGeometry.startAfter index)) = .error f) :
    planInserted snapshot ordinal name layout index = .error (.fault f) := by
  rw [planInserted, h]
  rfl

theorem planFilling_inv (h : planFilling snapshot ordinal name layout table = .ok edits) :
    ∃ start stop : Int, planTableFill table layout (some (.int start, .int stop)) = .ok edits := by
  obtain ⟨⟨start, stop⟩, -, h⟩ := bind_eq_ok_iff.1 h
  exact ⟨start, stop, h⟩

/-- Every batch that is planned for an inserted table fills one of the tables that stand directly in
the body. -/
theorem planInserted_inv (h : planInserted snapshot ordinal name layout index = .ok edits) :
    ∃ table ∈ snapshot.body.tables, planFilling snapshot ordinal name layout table = .ok edits := by
  cases hat : snapshot.tableAt (.int (TableGeometry.startAfter index)) with
  | error f =>
    rw [planInserted_of_tableAt_error hat] at h
    exact absurd h (by simp)
  | ok found =>
    cases found with
    | none =>
      rw [planInserted_of_tableAt_none hat] at h
      exact absurd h (by simp)
    | some table =>
      rw [planInserted_of_tableAt hat] at h
      exact ⟨table, mem_of_tableAt hat, h⟩

theorem planInserted_ne_nil (h : planInserted snapshot ordinal name layout index = .ok edits) :
    edits ≠ [] := by
  obtain ⟨table, -, htable⟩ := planInserted_inv h
  obtain ⟨start, stop, hfill⟩ := planFilling_inv htable
  exact List.ne_nil_of_mem (removeBorders_mem_planTableFill hfill)

/-- A batch that fills a table inserts none, so it is not the batch of another stage. -/
theorem planInserted_ne_insertTable
    (h : planInserted snapshot ordinal name layout index = .ok edits) (place rows columns : Json) :
    edits ≠ [.insertTable place rows columns] := by
  rintro rfl
  obtain ⟨table, -, htable⟩ := planInserted_inv h
  obtain ⟨start, stop, hfill⟩ := planFilling_inv htable
  exact absurd (List.mem_singleton.1 (removeBorders_mem_planTableFill hfill)) (by simp)

end Plan

/-! ## The stages of a run -/

/-- What the rendering of one marker can make of a run. It stops before a batch, at one, or at a
plan, or it comes as far as applying the batch that was planned from the document with the new
table. -/
inductive MarkerRun (options : FillOptions) (documentId : Json) (ordinal : Nat) (name : Text)
    (layout : TableLayout) (revision : Json) :
    List StoreEvent → Except Failure (AppliedBatch × AppliedBatch) → Prop where
  | unplaced (e : Failure) : MarkerRun _ _ _ _ _ _ [] (.error e)
  | refused (index : Int) (answer : Except Failure Json) (e : Failure) :
      MarkerRun _ _ _ _ _ _
        [.insertTable documentId index layout.rowCount layout.columnCount revision answer]
        (.error e)
  | unread (index : Int) {inserted answer : Except Failure Json} (e : Failure)
      (h : ∀ document after, answer = .ok document →
        Snapshot.ofDocument document documentId options.tabId ≠ .ok after) :
      MarkerRun _ _ _ _ _ _
        [.insertTable documentId index layout.rowCount layout.columnCount revision inserted,
          .fetch documentId answer] (.error e)
  | unplanned {index : Int} {inserted : Except Failure Json} {document : Json} {after : Snapshot}
      {e : Failure} (hafter : Snapshot.ofDocument document documentId options.tabId = .ok after)
      (hplan : planInserted after ordinal name layout index = .error e) :
      MarkerRun _ _ _ _ _ _
        [.insertTable documentId index layout.rowCount layout.columnCount revision inserted,
          .fetch documentId (.ok document)] (.error e)
  | filled {index : Int} {inserted : Except Failure Json} {document : Json} {after : Snapshot}
      {fill : List Edit}
      (hafter : Snapshot.ofDocument document documentId options.tabId = .ok after)
      (hplan : planInserted after ordinal name layout index = .ok fill)
      (answer : Except Failure Json) (result : Except Failure (AppliedBatch × AppliedBatch)) :
      MarkerRun _ _ _ _ _ _
        [.insertTable documentId index layout.rowCount layout.columnCount revision inserted,
          .fetch documentId (.ok document), .apply documentId fill after.revision answer] result

section Runs

variable {options : FillOptions} {documentId : Json} {events : List StoreEvent}

theorem markerRun_of_runs {ordinal : Nat} {name : Text} {layout : TableLayout}
    {snapshot : Snapshot} {result : Except Failure (AppliedBatch × AppliedBatch)}
    (h : Action.Runs (renderMarker options documentId ordinal name layout snapshot) events result) :
    MarkerRun options documentId ordinal name layout snapshot.revision events result := by
  rw [renderMarker] at h
  rcases Action.runs_lift_bind.1 h with ⟨e, -, rfl, rfl⟩ | ⟨⟨index, stop⟩, -, hrest⟩
  · exact .unplaced e
  rcases Action.runs_bind.1 hrest with ⟨e, hinsert, rfl⟩ | ⟨_, inserted, _, rfl, hinsert, hnext⟩
  · obtain ⟨answer, rfl, -⟩ := runs_applyEdits (by simp) hinsert
    exact .refused index answer e
  obtain ⟨reply, rfl, -⟩ := runs_applyEdits (by simp) hinsert
  rcases runs_fetchSnapshot_bind.1 hnext with
    ⟨e, rfl, rfl⟩ | ⟨document, _, rfl, ⟨e, hread, rfl, rfl⟩ | ⟨after, hread, hstage⟩⟩
  · exact .unread index e fun document after hanswer => absurd hanswer (by simp)
  · refine .unread index e fun document' after hanswer hafter => ?_
    rw [← Except.ok.inj hanswer] at hafter
    exact absurd (hread.symm.trans hafter) (by simp)
  rcases Action.runs_lift_bind.1 hstage with ⟨e, hplan, rfl, rfl⟩ | ⟨fill, hplan, hfill⟩
  · exact .unplanned hread hplan
  have hne := planInserted_ne_nil hplan
  rcases Action.runs_bind.1 hfill with ⟨e, hfilled, rfl⟩ | ⟨_, filled, _, rfl, hfilled, hend⟩
  · obtain ⟨answer, rfl, -⟩ := runs_applyEdits hne hfilled
    exact .filled hread hplan answer _
  · obtain ⟨answer, rfl, -⟩ := runs_applyEdits hne hfilled
    obtain ⟨rfl, rfl⟩ := Action.runs_pure.1 hend
    exact .filled hread hplan answer _

/-- How a run goes on by a plan. A plan that failed ends it with the error and the requests `last`;
otherwise the batch is the next one that is applied. -/
def CarriesOut {α : Type} (documentId revision : Json) (last : List StoreEvent)
    (plan : Except Failure (List Edit)) (events : List StoreEvent) (result : Except Failure α) :
    Prop :=
  match plan with
  | .error e => events = last ∧ result = .error e
  | .ok edits => ∃ answer rest, events = StoreEvent.apply documentId edits revision answer :: rest

section CarriesOut

variable {α β : Type} {revision : Json} {last : List StoreEvent}
  {plan : Except Failure (List Edit)}

theorem CarriesOut.of_error {e : Failure}
    (h : CarriesOut documentId revision last plan events (.error e : Except Failure α)) :
    CarriesOut documentId revision last plan events (.error e : Except Failure β) := by
  cases plan with
  | error e' => exact ⟨h.1, congrArg Except.error (Except.error.inj h.2)⟩
  | ok edits => exact h

/-- Where a run ends well, it does not matter with what. -/
theorem CarriesOut.of_ok {a : α} (result : Except Failure β)
    (h : CarriesOut documentId revision last plan events (.ok a)) :
    CarriesOut documentId revision last plan events result := by
  cases plan with
  | error e => exact absurd h.2 (by simp)
  | ok edits => exact h

theorem CarriesOut.append {result : Except Failure α} (last : List StoreEvent)
    (h : CarriesOut documentId revision [] plan events result) :
    CarriesOut documentId revision last plan (events ++ last) result := by
  cases plan with
  | error e =>
    obtain ⟨rfl, hresult⟩ := h
    exact ⟨rfl, hresult⟩
  | ok edits =>
    obtain ⟨answer, rest, rfl⟩ := h
    exact ⟨answer, rest ++ last, rfl⟩

end CarriesOut

/-- The stage of a marker in a run: what is applied after the document was read with an inserted
table is what is planned from that document. -/
def HasStage {α : Type} (options : FillOptions) (documentId : Json) (sections : SectionData)
    (last events : List StoreEvent) (result : Except Failure α) : Prop :=
  ∀ ⦃index rows columns revision reply document post after⦄,
    .insertTable documentId index rows columns revision reply ::
      .fetch documentId (.ok document) :: post <:+ events →
    Snapshot.ofDocument document documentId options.tabId = .ok after →
    ∃ marker ordinal data, selectSection marker sections = .ok (.ok data) ∧
      rows = (data.layout options.style).rowCount ∧
      columns = (data.layout options.style).columnCount ∧
      CarriesOut documentId after.revision last
        (planInserted after ordinal marker.name (data.layout options.style) index) post result

section Stages

variable {α : Type} {sections : SectionData} {last : List StoreEvent} {result : Except Failure α}

theorem hasStage_nil : HasStage options documentId sections last [] result := by
  intro index rows columns revision reply document post after hstage
  exact absurd (List.suffix_nil.1 hstage) (by simp)

/-- A stage is never at the end of a run. -/
theorem hasStage_singleton (e : StoreEvent) :
    HasStage options documentId sections last [e] result := by
  intro index rows columns revision reply document post after hstage
  have := hstage.length_le
  simp at this

theorem HasStage.cons {e : StoreEvent} (he : ∀ edits revision answer,
    e ≠ .apply documentId edits revision answer)
    (h : HasStage options documentId sections last events result) :
    HasStage options documentId sections last (e :: events) result := by
  intro index rows columns revision reply document post after hstage
  rcases List.suffix_cons_iff.1 hstage with heq | hstage
  · exact absurd (List.cons.inj heq).1.symm (he _ _ _)
  · exact h hstage

theorem HasStage.imp {β : Type} {result' : Except Failure β}
    (h : HasStage options documentId sections last events result)
    (himp : ∀ revision plan post, CarriesOut documentId revision last plan post result →
      CarriesOut documentId revision last plan post result') :
    HasStage options documentId sections last events result' := by
  intro index rows columns revision reply document post after hstage hafter
  obtain ⟨marker, ordinal, data, hselect, hrows, hcolumns, hcarries⟩ := h hstage hafter
  exact ⟨marker, ordinal, data, hselect, hrows, hcolumns, himp _ _ _ hcarries⟩

/-- A stage that begins here is the one that is planned from the document that was read. -/
theorem exists_of_heads_eq {marker : SectionMarker} {ordinal : Nat} {data : Section}
    (hselect : selectSection marker sections = .ok (.ok data)) {index index' : Int}
    {rows columns revision revision' document document' : Json}
    {inserted inserted' : Except Failure Json} {post post' : List StoreEvent}
    {after after' : Snapshot}
    (heq : StoreEvent.insertTable documentId index rows columns revision inserted ::
        .fetch documentId (.ok document) :: post =
      .insertTable documentId index' (data.layout options.style).rowCount
          (data.layout options.style).columnCount revision' inserted' ::
        .fetch documentId (.ok document') :: post')
    (hafter : Snapshot.ofDocument document documentId options.tabId = .ok after)
    (hafter' : Snapshot.ofDocument document' documentId options.tabId = .ok after')
    {plan : Except Failure (List Edit)}
    (hplan : planInserted after' ordinal marker.name (data.layout options.style) index' = plan)
    (hcarries : CarriesOut documentId after'.revision last plan post' result) :
    ∃ marker ordinal data, selectSection marker sections = .ok (.ok data) ∧
      rows = (data.layout options.style).rowCount ∧
      columns = (data.layout options.style).columnCount ∧
      CarriesOut documentId after.revision last
        (planInserted after ordinal marker.name (data.layout options.style) index) post result := by
  obtain ⟨hinsert, hrest⟩ := List.cons.inj heq
  obtain ⟨hfetch, rfl⟩ := List.cons.inj hrest
  obtain ⟨-, hedits, -⟩ := StoreEvent.apply_inj.1 hinsert
  simp only [List.cons.injEq, Edit.insertTable.injEq, Json.int.injEq, and_true] at hedits
  obtain ⟨rfl, rfl, rfl⟩ := hedits
  obtain rfl := Except.ok.inj (StoreEvent.fetch_inj.1 hfetch).2
  obtain rfl := Except.ok.inj (hafter.symm.trans hafter')
  exact ⟨marker, ordinal, data, hselect, rfl, rfl, hplan ▸ hcarries⟩

/-- The stage of one marker, with the stages of other ones behind it. -/
theorem hasStage_of_markerRun {marker : SectionMarker} {ordinal : Nat} {data : Section}
    (hselect : selectSection marker sections = .ok (.ok data)) {revision : Json}
    {stage : Except Failure (AppliedBatch × AppliedBatch)}
    (h : MarkerRun options documentId ordinal marker.name (data.layout options.style) revision
      events stage) {later : List StoreEvent}
    (herror : ∀ e, stage = .error e → later = [] ∧ result = .error e)
    (hlater : HasStage options documentId sections [] later result) :
    HasStage options documentId sections [] (events ++ later) result := by
  cases h with
  | unplaced e => exact hlater
  | refused index answer e =>
    obtain ⟨rfl, -⟩ := herror e rfl
    exact hasStage_singleton _
  | unread index e hunread =>
    obtain ⟨rfl, -⟩ := herror e rfl
    intro index' rows columns revision' reply document post after hstage hafter
    rcases List.suffix_cons_iff.1 hstage with heq | hstage
    · have hfetch := (List.cons.inj (List.cons.inj heq).2).1
      exact absurd hafter (hunread document after (StoreEvent.fetch_inj.1 hfetch).2.symm)
    · exact hasStage_singleton _ hstage hafter
  | unplanned hread hplan =>
    obtain ⟨rfl, rfl⟩ := herror _ rfl
    intro index' rows columns revision' reply document post after hstage hafter
    rcases List.suffix_cons_iff.1 hstage with heq | hstage
    · exact exists_of_heads_eq hselect heq hafter hread hplan ⟨rfl, rfl⟩
    · exact hasStage_singleton _ hstage hafter
  | filled hread hplan answer =>
    intro index' rows columns revision' reply document post after hstage hafter
    rcases List.suffix_cons_iff.1 hstage with heq | hstage
    · exact exists_of_heads_eq hselect heq hafter hread hplan ⟨answer, later, rfl⟩
    · refine HasStage.cons (fun _ _ _ h => StoreEvent.apply_ne_fetch h.symm) ?_ hstage hafter
      -- the batch that fills the table is not taken for one that inserts one
      intro index' rows columns revision' reply document post after hstage hafter
      rcases List.suffix_cons_iff.1 hstage with heq | hstage
      · have hfill := (StoreEvent.apply_inj.1 (List.cons.inj heq).1).2.1
        exact absurd hfill.symm (planInserted_ne_insertTable hplan _ _ _)
      · exact hlater hstage hafter

/-- What is made of the result at the end makes no difference to the stages. -/
theorem hasStage_of_bind_pure {β : Type} {x : Action documentStore β} {f : β → α}
    (hx : ∀ {events result}, Action.Runs x events result →
      HasStage options documentId sections last events result)
    (h : Action.Runs (x >>= fun b => pure (f b)) events result) :
    HasStage options documentId sections last events result := by
  obtain ⟨r, hrun, rfl⟩ := Action.runs_bind_pure.1 h
  cases r with
  | error e => exact (hx hrun).imp fun _ _ _ hcarries => hcarries.of_error
  | ok b => exact (hx hrun).imp fun _ _ _ hcarries => hcarries.of_ok _

theorem runs_currentSnapshot {fresh : Option Snapshot} {result : Except Failure Snapshot}
    (h : Action.Runs (currentSnapshot options documentId fresh) events result) :
    events = [] ∨ ∃ answer, events = [.fetch documentId answer] := by
  cases fresh with
  | some snapshot => exact .inl (Action.runs_pure.1 h).1
  | none =>
    obtain ⟨answer, hevents, -⟩ := runs_fetchSnapshot.1 h
    exact .inr ⟨answer, hevents⟩

/-- Every stage in a run over some markers is the stage of one of them. -/
theorem renderMarkers_inv {fresh : Option Snapshot} {markers : List (SectionMarker × Nat)}
    {result : Except Failure RenderedSections}
    (h : Action.Runs (renderMarkers options documentId sections fresh markers) events result) :
    HasStage options documentId sections [] events result := by
  induction markers generalizing fresh events result with
  | nil =>
    obtain ⟨rfl, -⟩ := Action.runs_pure.1 h
    exact hasStage_nil
  | cons entry rest ih =>
    obtain ⟨marker, ordinal⟩ := entry
    rw [renderMarkers] at h
    rcases Action.runs_lift_bind.1 h with ⟨e, -, rfl, rfl⟩ | ⟨selected, hselected, hcase⟩
    · exact hasStage_nil
    cases selected with
    | error skipped => exact hasStage_of_bind_pure ih hcase
    | ok data =>
      have hselected' : selectSection marker sections = .ok (.ok data) :=
        liftM_fault_eq_ok_iff.1 hselected
      rcases Action.runs_bind.1 hcase with
        ⟨e, hfresh, rfl⟩ | ⟨_, snapshot, onward, rfl, hfresh, hmarker⟩
      · rcases runs_currentSnapshot hfresh with rfl | ⟨answer, rfl⟩
        · exact hasStage_nil
        · exact hasStage_singleton _
      have hstages : HasStage options documentId sections [] onward result := by
        rcases Action.runs_bind.1 hmarker with
          ⟨e, hstage, rfl⟩ | ⟨_, ⟨inserted, filled⟩, later, rfl, hstage, hothers⟩
        · rw [← List.append_nil onward]
          exact hasStage_of_markerRun hselected' (markerRun_of_runs hstage)
            (fun e' he' => ⟨rfl, congrArg Except.error (Except.error.inj he')⟩) hasStage_nil
        · exact hasStage_of_markerRun hselected' (markerRun_of_runs hstage)
            (fun e he => absurd he (by simp)) (hasStage_of_bind_pure ih hothers)
      rcases runs_currentSnapshot hfresh with rfl | ⟨answer, rfl⟩
      · exact hstages
      · exact hstages.cons fun _ _ _ h => StoreEvent.apply_ne_fetch h.symm

/-- Every stage in a run over all section markers of a document is the stage of one of them. -/
theorem renderSections_inv {result : Except Failure RenderedSections}
    (h : Action.Runs (renderSections options documentId sections) events result) :
    HasStage options documentId sections [.release documentId] events result := by
  rcases runs_withDocument h with rfl | ⟨inner, hinner, rfl⟩
  · exact hasStage_nil
  have hstages : HasStage options documentId sections [] inner result := by
    rcases runs_fetchSnapshot_bind.1 hinner with
      ⟨e, rfl, rfl⟩ | ⟨document, _, rfl, ⟨e, -, rfl, rfl⟩ | ⟨s, -, hmarkers⟩⟩
    · exact hasStage_singleton _
    · exact hasStage_singleton _
    · exact (renderMarkers_inv hmarkers).cons fun _ _ _ h => StoreEvent.apply_ne_fetch h.symm
  refine HasStage.cons (fun _ _ _ h => StoreEvent.apply_ne_acquire h.symm) ?_
  intro index rows columns revision reply document post after hstage hafter
  rcases List.suffix_concat_iff.1 hstage with hnil | ⟨front, heq, hfront⟩
  · exact absurd hnil (by simp)
  obtain ⟨post, rfl, rfl⟩ : ∃ post', post = post' ++ [.release documentId] ∧
      front = .insertTable documentId index rows columns revision reply ::
        .fetch documentId (.ok document) :: post' := by
    match front, heq with
    | [], heq => exact absurd (List.cons.inj heq).1 StoreEvent.apply_ne_release
    | [e], heq =>
      exact absurd (List.cons.inj (List.cons.inj heq).2).1 StoreEvent.fetch_ne_release
    | e :: e' :: post', heq =>
      obtain ⟨rfl, hrest⟩ := List.cons.inj heq
      obtain ⟨rfl, hpost⟩ := List.cons.inj hrest
      exact ⟨post', hpost, rfl⟩
  obtain ⟨marker, ordinal, data, hselect, hrows, hcolumns, hcarries⟩ :=
    hstages hfront hafter
  exact ⟨marker, ordinal, data, hselect, hrows, hcolumns, hcarries.append _⟩

end Stages

end Runs

end Template

end DocTemplate
