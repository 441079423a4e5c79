import DocTemplate.Proofs.Template.Agenda
import DocTemplate.Proofs.Template.InsertedTable

/-!
# The discipline of requests

How the requests of a run follow each other, whatever they are answered with: a document is read
before each batch, the batch requires the revision that was read, and nothing is asked for after a
failure. `Conducts.disciplined` proves this of every agenda, by induction along its steps.

Section tables take two batches each: one that inserts a table, and one that fills it and deletes
its marker. They follow each other in turn because the steps of the agenda do
(`Conducts.alternating`), and they are counted along the markers
(`length_appliedBatches_markersAgenda`).
-/

namespace DocTemplate

namespace StoreEvent

/-- The store answers a request for a document with a failure. -/
inductive Fails : StoreEvent → Failure → Prop where
  | fetch (documentId : Json) (e : Failure) : Fails (.fetch documentId (.error e)) e
  | apply (documentId : Json) (edits : List Edit) (revision : Json) (e : Failure) :
      Fails (.apply documentId edits revision (.error e)) e

theorem fails_fetch_iff {documentId : Json} {answer : Except Failure Json} {e : Failure} :
    (fetch documentId answer).Fails e ↔ answer = .error e := by
  constructor
  · intro h
    generalize hevent : fetch documentId answer = event at h
    cases h with
    | fetch => exact (fetch_inj.1 hevent).2
    | apply => exact absurd hevent.symm apply_ne_fetch
  · rintro rfl
    exact .fetch documentId e

theorem fails_apply_iff {documentId revision : Json} {edits : List Edit}
    {answer : Except Failure Json} {e : Failure} :
    (apply documentId edits revision answer).Fails e ↔ answer = .error e := by
  constructor
  · intro h
    generalize hevent : apply documentId edits revision answer = event at h
    cases h with
    | fetch => exact absurd hevent apply_ne_fetch
    | apply => exact (apply_inj.1 hevent).2.2.2
  · rintro rfl
    exact .apply documentId edits revision e

/-- The batch that a request sends, if it sends one. -/
def batch? : StoreEvent → Option (List Edit)
  | ⟨.apply _ edits _, _⟩ => some edits
  | _ => none

end StoreEvent

/-- The batches that are sent by some requests, in order. -/
def appliedBatches (calls : List StoreEvent) : List (List Edit) :=
  calls.filterMap StoreEvent.batch?

section AppliedBatches

variable {documentId revision : Json} {answer : Except Failure Json} {edits : List Edit}
  {calls : List StoreEvent}

@[simp] theorem appliedBatches_fetch :
    appliedBatches (.fetch documentId answer :: calls) = appliedBatches calls := rfl

@[simp] theorem appliedBatches_locked :
    appliedBatches (.acquire documentId :: (calls ++ [.release documentId])) =
      appliedBatches calls := by
  have hrelease : appliedBatches [.release documentId] = [] := rfl
  unfold appliedBatches at hrelease ⊢
  exact List.filterMap_append.trans (by rw [hrelease, List.append_nil])

@[simp] theorem appliedBatches_apply :
    appliedBatches (.apply documentId edits revision answer :: calls) =
      edits :: appliedBatches calls := rfl

end AppliedBatches

/-! ## Reading before every batch -/

/-- Requests for a document take turns: the document is read, and then a batch is sent, which
requires the revision that was read. A failure is the last answer, and it is what the work ends
with. -/
structure Disciplined {α : Type} (documentId : Json) (calls : List StoreEvent)
    (result : Except Failure α) : Prop where
  fetches : ∀ i call, calls[2 * i]? = some call → ∃ answer, call = .fetch documentId answer
  applies : ∀ i call, calls[2 * i + 1]? = some call →
    ∃ document revision edits answer, calls[2 * i]? = some (.fetch documentId (.ok document)) ∧
      document.fieldD "revisionId" .null = .ok revision ∧
      call = .apply documentId edits revision answer
  stops : ∀ i call e, calls[i]? = some call → call.Fails e →
    i + 1 = calls.length ∧ result = .error e

theorem Snapshot.revision_ofDocument {document documentId tabId : Json} {s : Snapshot}
    (h : Snapshot.ofDocument document documentId tabId = .ok s) :
    document.fieldD "revisionId" .null = .ok s.revision := by
  simp only [Snapshot.ofDocument, bind_eq_ok_iff, liftM_fault_eq_ok_iff] at h
  obtain ⟨revision, hrevision, body, -, ownId, -, title, -, h⟩ := h
  rw [hrevision, ← pure_eq_ok_iff.1 h]

section Disciplined

variable {α : Type} {documentId : Json} {calls : List StoreEvent} {result : Except Failure α}

theorem disciplined_nil : Disciplined documentId [] result where
  fetches := by simp
  applies := by simp
  stops := by simp

theorem disciplined_fetch {answer : Except Failure Json}
    (hanswer : ∀ e, answer = .error e → result = .error e) :
    Disciplined documentId [.fetch documentId answer] result where
  fetches := by
    intro i call hcall
    obtain rfl := List.mem_singleton.1 (List.mem_of_getElem? hcall)
    exact ⟨answer, rfl⟩
  applies := by
    intro i call hcall
    obtain ⟨hlt, -⟩ := List.getElem?_eq_some_iff.1 hcall
    simp at hlt
  stops := by
    intro i call e hcall hfails
    obtain ⟨hlt, -⟩ := List.getElem?_eq_some_iff.1 hcall
    obtain rfl := List.mem_singleton.1 (List.mem_of_getElem? hcall)
    exact ⟨by simp_all, hanswer e (StoreEvent.fails_fetch_iff.1 hfails)⟩

/-- One more turn in front of requests that take turns. -/
theorem Disciplined.cons_cons {document revision : Json} {edits : List Edit}
    {answer : Except Failure Json}
    (hrevision : document.fieldD "revisionId" .null = .ok revision)
    (hanswer : ∀ e, answer = .error e → calls = [] ∧ result = .error e)
    (h : Disciplined documentId calls result) :
    Disciplined documentId (.fetch documentId (.ok document) ::
      .apply documentId edits revision answer :: calls) result where
  fetches := by
    intro i call hcall
    cases i with
    | zero => exact ⟨.ok document, (Option.some.inj hcall).symm⟩
    | succ i => exact h.fetches i call hcall
  applies := by
    intro i call hcall
    cases i with
    | zero =>
      exact ⟨document, revision, edits, answer, rfl, hrevision, (Option.some.inj hcall).symm⟩
    | succ i => exact h.applies i call hcall
  stops := by
    intro i call e hcall hfails
    match i with
    | 0 =>
      obtain rfl := Option.some.inj hcall
      exact absurd (StoreEvent.fails_fetch_iff.1 hfails) (by simp)
    | 1 =>
      obtain rfl := Option.some.inj hcall
      obtain ⟨rfl, hresult⟩ := hanswer e (StoreEvent.fails_apply_iff.1 hfails)
      exact ⟨rfl, hresult⟩
    | i + 2 =>
      obtain ⟨hlast, hresult⟩ := h.stops i call e hcall hfails
      exact ⟨by simp only [List.length_cons, ← hlast], hresult⟩

/-- What is made of a result at the end makes no difference to the discipline. -/
theorem Disciplined.of_map {β : Type} {f : α → β}
    (h : Disciplined documentId calls (result.map f)) : Disciplined documentId calls result where
  fetches := h.fetches
  applies := h.applies
  stops := by
    intro i call e hcall hfails
    obtain ⟨hlast, hresult⟩ := h.stops i call e hcall hfails
    cases result with
    | error e' => exact ⟨hlast, congrArg Except.error (Except.error.inj hresult)⟩
    | ok a => exact absurd hresult (by simp [Except.map])

/-- Going through an agenda keeps the discipline. -/
theorem Conducts.disciplined {options : FillOptions} {a : Agenda α}
    (h : Conducts options documentId a calls result) : Disciplined documentId calls result := by
  induction h with
  | finish result => exact disciplined_nil
  | unfetched e => exact disciplined_fetch fun e' he' => by rw [Except.error.inj he']
  | unread hread => exact disciplined_fetch fun e he => absurd he (by simp)
  | unplanned hread hplan => exact disciplined_fetch fun e he => absurd he (by simp)
  | idle hread hplan hnext => exact disciplined_fetch fun e he => absurd he (by simp)
  | refused hread hplan hedits e =>
    refine .cons_cons (Snapshot.revision_ofDocument hread) (fun e' he' => ?_) disciplined_nil
    exact ⟨rfl, by rw [Except.error.inj he']⟩
  | applied hread hplan hedits reply hnext ih =>
    exact ih.cons_cons (Snapshot.revision_ofDocument hread) fun e he => absurd he (by simp)

end Disciplined

/-! ## Two kinds of batches in turn -/

/-- The items are of two kinds in turn, beginning with the first one. -/
def Alternating {α : Type} : (α → Prop) → (α → Prop) → List α → Prop
  | _, _, [] => True
  | p, q, a :: rest => p a ∧ Alternating q p rest

/-- The steps of an agenda send batches of two kinds in turn. -/
inductive Agenda.Alternates {α : Type} :
    (List Edit → Prop) → (List Edit → Prop) → Agenda α → Prop where
  | finish {p q : List Edit → Prop} (result : Except Failure α) : Alternates p q (.finish result)
  | step {p q : List Edit → Prop} {plan : Snapshot → Except Failure (List Edit)}
      {next : Snapshot → Agenda α} (hplan : ∀ s edits, plan s = .ok edits → edits ≠ [] → p edits)
      (hnext : ∀ s, Alternates q p (next s)) : Alternates p q (.step plan next)

section Alternating

variable {α β : Type} {p q : List Edit → Prop}

theorem Agenda.Alternates.map (f : α → β) {a : Agenda α} (h : a.Alternates p q) :
    (a.map f).Alternates p q := by
  induction h with
  | finish result => exact .finish _
  | step hplan _ ih => exact .step hplan ih

theorem Agenda.alternates_afterReading {work : Snapshot → Agenda α}
    (h : ∀ s, (work s).Alternates p q) : (afterReading work).Alternates p q := by
  refine .step (fun s edits hplan hedits => ?_) fun s => ?_
  · cases hwork : work s with
    | finish result =>
      rw [hwork] at hplan
      cases result with
      | error e => exact absurd hplan (by simp [Agenda.plan])
      | ok a => exact absurd (Except.ok.inj hplan).symm hedits
    | step plan next =>
      have hstep := h s
      rw [hwork] at hplan hstep
      cases hstep with
      | step hfirst _ => exact hfirst s edits hplan hedits
  · cases hwork : work s with
    | finish result => exact .finish result
    | step plan next =>
      have hstep := h s
      rw [hwork] at hstep
      cases hstep with
      | step _ hnext => exact hnext s

/-- The batches that are sent are of the kinds of the steps. -/
theorem Conducts.alternating {options : FillOptions} {documentId : Json} {a : Agenda α}
    {calls : List StoreEvent} {result : Except Failure α}
    (h : Conducts options documentId a calls result) (ha : a.Alternates p q) :
    Alternating p q (appliedBatches calls) := by
  induction h generalizing p q with
  | finish result => trivial
  | unfetched e => trivial
  | unread hread => trivial
  | unplanned hread hplan => trivial
  | idle hread hplan hnext => trivial
  | refused hread hplan hedits e =>
    cases ha with
    | step hkind _ => exact ⟨hkind _ _ hplan hedits, trivial⟩
  | applied hread hplan hedits reply hnext ih =>
    cases ha with
    | step hkind hlater => exact ⟨hkind _ _ hplan hedits, ih (hlater _)⟩

end Alternating

/-- The batch inserts one table and does nothing else. -/
def IsInsertion (edits : List Edit) : Prop :=
  ∃ index rows columns, edits = [.insertTable index rows columns]

/-- The batch ends with the deletion of a range and deletes nothing before. -/
def IsFilling (edits : List Edit) : Prop :=
  ∃ front start stop, edits = front ++ [.deleteRange start stop] ∧ ∀ e ∈ front, ¬ e.IsDeletion

theorem IsInsertion.ne_nil {edits : List Edit} (h : IsInsertion edits) : edits ≠ [] := by
  obtain ⟨_, _, _, rfl⟩ := h
  exact List.cons_ne_nil _ _

theorem IsFilling.ne_nil {edits : List Edit} (h : IsFilling edits) : edits ≠ [] := by
  obtain ⟨_, _, _, rfl, -⟩ := h
  simp

namespace Template

section Batches

variable {style : LayoutStyle} {sections : SectionData} {s after : Snapshot} {ordinal : Nat}
  {name : Text} {layout : TableLayout} {edits : List Edit}

theorem isInsertion_of_planInsertion (h : planInsertion s ordinal name layout = .ok edits) :
    IsInsertion edits := by
  simp only [planInsertion, bind_eq_ok_iff, pure_eq_ok_iff] at h
  obtain ⟨⟨index, stop⟩, -, rfl⟩ := h
  exact ⟨_, _, _, rfl⟩

theorem isFilling_of_planInsertedAt (h : planInsertedAt s after ordinal name layout = .ok edits) :
    IsFilling edits := by
  simp only [planInsertedAt, bind_eq_ok_iff] at h
  obtain ⟨⟨index, _⟩, -, h⟩ := h
  obtain ⟨table, -, htable⟩ := planInserted_inv h
  obtain ⟨start, stop, hfill⟩ := planFilling_inv htable
  obtain ⟨-, front, done, -, rfl, hfills, -⟩ := planTableFill_split hfill
  exact ⟨front, _, _, rfl, fun e he => (hfills e he).not_isDeletion⟩

/-- Section markers send insertions and fillings in turn. -/
theorem alternates_markersAgenda (markers : List (SectionMarker × Nat)) :
    (markersAgenda style sections markers).Alternates IsInsertion IsFilling := by
  induction markers with
  | nil => exact .finish _
  | cons entry rest ih =>
    rw [markersAgenda]
    split
    · exact .finish _
    · exact ih.map _
    · refine .step (fun _ _ h _ => isInsertion_of_planInsertion h) fun before => ?_
      exact .step (fun _ _ h _ => isFilling_of_planInsertedAt h) fun _ => ih.map _

theorem planInsertion_ne_nil : planInsertion s ordinal name layout ≠ .ok [] :=
  fun h => (isInsertion_of_planInsertion h).ne_nil rfl

theorem planInsertedAt_ne_nil : planInsertedAt s after ordinal name layout ≠ .ok [] :=
  fun h => (isFilling_of_planInsertedAt h).ne_nil rfl

/-- Work on section markers that ends well skips the first of them, or renders it in two steps. -/
theorem conducts_markersAgenda_cons {options : FillOptions} {documentId : Json}
    {marker : SectionMarker} {rest : List (SectionMarker × Nat)} {calls : List StoreEvent}
    {r : List Text × List SkippedSection}
    (h : Conducts options documentId (markersAgenda style sections ((marker, ordinal) :: rest))
      calls (.ok r)) :
    (∃ skipped r', selectSection marker sections = .ok (.error skipped) ∧
        Conducts options documentId (markersAgenda style sections rest) calls (.ok r') ∧
        r = (r'.1, r'.2 ++ [skipped])) ∨
      ∃ data document s insert reply document' fill revision reply' later r',
        selectSection marker sections = .ok (.ok data) ∧
        calls = .fetch documentId (.ok document) ::
          .apply documentId insert s.revision (.ok reply) ::
          .fetch documentId (.ok document') ::
          .apply documentId fill revision (.ok reply') :: later ∧
        Snapshot.ofDocument document documentId options.tabId = .ok s ∧
        planInsertion s ordinal marker.name (data.layout style) = .ok insert ∧
        Conducts options documentId (markersAgenda style sections rest) later (.ok r') ∧
        r = (r'.1 ++ [marker.name], r'.2) := by
  rw [markersAgenda] at h
  split at h
  · generalize hresult : Except.ok r = result at h
    cases h
    exact absurd hresult (by simp)
  · next skipped hselect =>
    obtain ⟨r', hrest, hr⟩ := h.of_map
    obtain ⟨r', rfl, rfl⟩ := map_eq_ok_iff.1 hr.symm
    exact .inl ⟨skipped, r', hselect, hrest, rfl⟩
  · next data hselect =>
    obtain ⟨document, s, insert, reply, _, rfl, hread, hinsert, hfill⟩ :=
      h.step_ok_inv fun _ => planInsertion_ne_nil
    obtain ⟨document', after, fill, reply', later, rfl, -, -, hlater⟩ :=
      hfill.step_ok_inv fun _ => planInsertedAt_ne_nil
    obtain ⟨r', hrest, hr⟩ := hlater.of_map
    obtain ⟨r', rfl, rfl⟩ := map_eq_ok_iff.1 hr.symm
    exact .inr ⟨data, document, s, insert, reply, document', fill, _, reply', later, r', hselect,
      rfl, hread, hinsert, hrest, rfl⟩

theorem eq_of_conducts_markersAgenda_nil {options : FillOptions} {documentId : Json}
    {calls : List StoreEvent} {r : List Text × List SkippedSection}
    (h : Conducts options documentId (markersAgenda style sections []) calls (.ok r)) :
    calls = [] ∧ r = ([], []) := by
  generalize hresult : Except.ok r = result at h
  rw [markersAgenda] at h
  cases h
  exact ⟨rfl, Except.ok.inj hresult⟩

/-- Work on section markers that ends well has sent two batches for each marker that got a table. -/
theorem length_appliedBatches_markersAgenda {options : FillOptions} {documentId : Json}
    {markers : List (SectionMarker × Nat)} {calls : List StoreEvent}
    {r : List Text × List SkippedSection}
    (h : Conducts options documentId (markersAgenda style sections markers) calls (.ok r)) :
    (appliedBatches calls).length = 2 * r.1.length := by
  induction markers generalizing calls r with
  | nil =>
    obtain ⟨rfl, rfl⟩ := eq_of_conducts_markersAgenda_nil h
    rfl
  | cons entry rest ih =>
    rcases conducts_markersAgenda_cons h with
      ⟨skipped, r', -, hrest, rfl⟩ |
      ⟨_, _, _, _, _, _, _, _, _, later, r', -, rfl, -, -, hrest, rfl⟩
    · rw [ih hrest]
    · simp only [appliedBatches_fetch, appliedBatches_apply, List.length_cons, ih hrest,
        List.length_append, List.length_nil]
      omega

end Batches

/-! ## Runs -/

/-- The requests of a run keep the discipline, and they are those of an agenda: the run begins with
reading the document, and ends with what the agenda ends with. -/
structure KeepsTo {α β : Type} (options : FillOptions) (documentId : Json) (a : Agenda β)
    (report : α → β) (calls : List StoreEvent) (result : Except Failure α) : Prop extends
    Disciplined documentId calls result where
  starts : calls ≠ []
  conducts : Conducts options documentId a calls (result.map report)

theorem keepsTo_of_conducts {α β : Type} {options : FillOptions} {documentId : Json}
    {plan : Snapshot → Except Failure (List Edit)} {next : Snapshot → Agenda β}
    {report : α → β} {calls : List StoreEvent} {result : Except Failure α}
    (h : Conducts options documentId (.step plan next) calls (result.map report)) :
    KeepsTo options documentId (.step plan next) report calls result where
  toDisciplined := h.disciplined.of_map
  starts := by
    rintro rfl
    rcases h.step_inv with ⟨_, hcalls, -⟩ | ⟨_, _, hcalls, -⟩ <;> exact absurd hcalls (by simp)
  conducts := h

/-- **Requests to the store keep their discipline**: whatever a store answers, filling variables and
rendering section tables read the document before each batch, require the revision that was read for
it, and stop at the first failure of the store or of a plan, with that failure. Section tables are
inserted and filled in turn, by two batches for each marker that got a table. -/
theorem keepsTo_agenda (options : FillOptions) (documentId : Json) :
    (∀ values assets events result,
      Action.Runs (fillVariables options documentId values assets) events result →
      Locked documentId
        (KeepsTo options documentId (fillAgenda options values assets) AppliedBatch.edits)
        events result) ∧
    ∀ sections events result,
      Action.Runs (renderSections options documentId sections) events result →
      Locked documentId (fun calls (result : Except Failure RenderedSections) =>
          KeepsTo options documentId (renderAgenda options.style sections) RenderedSections.report
            calls result ∧
          Alternating IsInsertion IsFilling (appliedBatches calls) ∧
          ∀ r, result = .ok r → (appliedBatches calls).length = 2 * r.rendered.length)
        events result := by
  refine ⟨fun values assets events result h => ?_, fun sections events result h => ?_⟩
  · exact (conducts_fillVariables h).imp fun calls hcalls => keepsTo_of_conducts hcalls
  refine (conducts_renderSections h).imp fun calls hcalls =>
    ⟨keepsTo_of_conducts hcalls, hcalls.alternating ?_, ?_⟩
  · exact Agenda.alternates_afterReading fun s => alternates_markersAgenda _
  rintro r rfl
  rcases hcalls.afterReading_inv with
    ⟨_, e, -, -, he⟩ | ⟨document, rest, s, rfl, -, hwork | ⟨rfl, hwork⟩⟩
  · exact absurd he (by simp [Except.map])
  · exact length_appliedBatches_markersAgenda hwork
  · exact length_appliedBatches_markersAgenda hwork

/-- A value for one variable. -/
def oneValue : OrderedMap Entry :=
  ⟨[(['a'], .text ['x'])], by decide⟩

/-- A run that fills the variable of a document of one line. -/
def fillLine : List StoreEvent × Except Failure AppliedBatch :=
  (ExceptT.run (fillVariables {} (.str "doc-1") (.ok oneValue))).answered
    (answerFrom (documentData "rev-1" [lineData 1 7 "\x7b\x7ba\x7d\x7d\n"]) .null) 0

theorem keepsTo_line :
    Action.Runs (fillVariables {} (.str "doc-1") (.ok oneValue)) fillLine.1 fillLine.2 ∧
    Action.Runs (renderSections {} (.str "doc-1") pairSection) (runOver pageBefore pageAfter).1
      (runOver pageBefore pageAfter).2 ∧
    (∃ calls, fillLine.1 = .acquire (.str "doc-1") :: (calls ++ [.release (.str "doc-1")]) ∧
      calls.length = 2 ∧ Disciplined (.str "doc-1") calls fillLine.2) ∧
    ∃ calls, (runOver pageBefore pageAfter).1 =
        .acquire (.str "doc-1") :: (calls ++ [.release (.str "doc-1")]) ∧
      (appliedBatches calls).length = 2 ∧ Alternating IsInsertion IsFilling (appliedBatches calls) ∧
      Disciplined (.str "doc-1") calls (runOver pageBefore pageAfter).2 := by
  have hfill : Action.Runs (fillVariables {} (.str "doc-1") (.ok oneValue)) fillLine.1 fillLine.2 :=
    Program.runs_answered _ 0 _
  have hrender := runs_runOver pageBefore pageAfter
  obtain ⟨hfills, hrenders⟩ := keepsTo_agenda {} (.str "doc-1")
  obtain ⟨calls, hkeeps, hcalls⟩ := hfills _ _ _ _ hfill
  obtain ⟨calls', ⟨hkeeps', halternating, hcount⟩, hcalls'⟩ := hrenders _ _ _ hrender
  have hevents : fillLine.1.length = 4 := by cbv
  have hreport : RenderedSections.rendered <$> (runOver pageBefore pageAfter).2 = .ok [['S']] := by
    cbv
  obtain ⟨r, hr, hrendered⟩ := map_eq_ok_iff.1 hreport
  refine ⟨hfill, hrender, ⟨calls, hcalls, ?_, hkeeps.toDisciplined⟩,
    calls', hcalls', ?_, halternating, hkeeps'.toDisciplined⟩
  · simpa [hcalls] using hevents
  · rw [hcount r hr, hrendered]
    rfl

end Template

end DocTemplate
