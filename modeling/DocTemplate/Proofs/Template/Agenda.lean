import DocTemplate.Proofs.Plan.SectionTables
import DocTemplate.Proofs.Template.Stages
import DocTemplate.Template.Variables

/-!
# Agendas

What work on a document asks of a store, without the store: an agenda is a list of steps that is
found out as one goes along. A step reads the document, plans a batch from what was read and sends
it, and what the next step is may depend on what was read. `Conducts` says which requests a store is
asked for when an agenda is gone through, and how it ends: the steps are gone through in order, and
whatever fails first ends the work.

Filling the variables of a document is an agenda of one step. Rendering its section tables is an
agenda of two steps for each marker that gets a table: one inserts the table, one fills it. The
first step has been read for already, because the markers were found in it.

Main facts: `conducts_fillVariables`, `conducts_renderSections` (every run goes through the agenda).
The second one is by induction along the markers (`conducts_renderMarkers`); what carries it is that
a snapshot that is still good is the one that was read last (`Fresh`).
-/

namespace DocTemplate

/-- Steps that read a document, plan a batch from what was read, and send it. -/
inductive Agenda (α : Type) where
  /-- Nothing is left to do. -/
  | finish (result : Except Failure α)
  /-- A batch is planned from what is read and sent; then the work goes on. -/
  | step (plan : Snapshot → Except Failure (List Edit)) (next : Snapshot → Agenda α)

namespace Agenda

variable {α β : Type}

/-- The agenda with another result. -/
def map (f : α → β) : Agenda α → Agenda β
  | finish result => finish (result.map f)
  | step plan next => step plan fun s => (next s).map f

/-- The batch that is sent first; an empty one if nothing is left to do. -/
def plan : Agenda α → Snapshot → Except Failure (List Edit)
  | finish (.ok _), _ => .ok []
  | finish (.error e), _ => .error e
  | step plan _, s => plan s

/-- What is done after the batch that is sent first. -/
def next : Agenda α → Snapshot → Agenda α
  | finish result, _ => finish result
  | step _ next, s => next s

/-- The agenda that is found out by reading the document, and whose first step plans from what was
read for that. -/
def afterReading (work : Snapshot → Agenda α) : Agenda α :=
  step (fun s => (work s).plan s) fun s => (work s).next s

theorem map_eq_finish {f : α → β} {a : Agenda α} {result : Except Failure β} :
    a.map f = finish result ↔ ∃ r : Except Failure α, a = finish r ∧ r.map f = result := by
  cases a <;> simp [map]

theorem plan_map (f : α → β) (a : Agenda α) : (a.map f).plan = a.plan := by
  funext s
  cases a with
  | finish result => cases result <;> rfl
  | step plan next => rfl

theorem next_map (f : α → β) (a : Agenda α) (s : Snapshot) :
    (a.map f).next s = (a.next s).map f := by
  cases a <;> rfl

theorem map_afterReading (f : α → β) (work : Snapshot → Agenda α) :
    (afterReading work).map f = afterReading fun s => (work s).map f := by
  simp only [afterReading, map, plan_map, next_map]

end Agenda

/-- Going through an agenda can make these requests, be given these answers, and end with this
result. A batch that is empty is not sent, and nothing is left to do then. -/
inductive Conducts {α : Type} (options : FillOptions) (documentId : Json) :
    Agenda α → List StoreEvent → Except Failure α → Prop where
  /-- Nothing is left to do. -/
  | finish (result : Except Failure α) : Conducts options documentId (.finish result) [] result
  /-- The store fails to read the document. -/
  | unfetched {plan : Snapshot → Except Failure (List Edit)} {next : Snapshot → Agenda α}
      (e : Failure) :
      Conducts options documentId (.step plan next) [.fetch documentId (.error e)] (.error e)
  /-- What was read is no document. -/
  | unread {plan : Snapshot → Except Failure (List Edit)} {next : Snapshot → Agenda α}
      {document : Json} {e : Failure}
      (hread : Snapshot.ofDocument document documentId options.tabId = .error e) :
      Conducts options documentId (.step plan next) [.fetch documentId (.ok document)] (.error e)
  /-- No batch can be planned. -/
  | unplanned {plan : Snapshot → Except Failure (List Edit)} {next : Snapshot → Agenda α}
      {document : Json} {s : Snapshot} {e : Failure}
      (hread : Snapshot.ofDocument document documentId options.tabId = .ok s)
      (hplan : plan s = .error e) :
      Conducts options documentId (.step plan next) [.fetch documentId (.ok document)] (.error e)
  /-- The batch is empty. -/
  | idle {plan : Snapshot → Except Failure (List Edit)} {next : Snapshot → Agenda α}
      {document : Json} {s : Snapshot} {result : Except Failure α}
      (hread : Snapshot.ofDocument document documentId options.tabId = .ok s)
      (hplan : plan s = .ok []) (hnext : next s = .finish result) :
      Conducts options documentId (.step plan next) [.fetch documentId (.ok document)] result
  /-- The store refuses the batch. -/
  | refused {plan : Snapshot → Except Failure (List Edit)} {next : Snapshot → Agenda α}
      {document : Json} {s : Snapshot} {edits : List Edit}
      (hread : Snapshot.ofDocument document documentId options.tabId = .ok s)
      (hplan : plan s = .ok edits) (hedits : edits ≠ []) (e : Failure) :
      Conducts options documentId (.step plan next)
        [.fetch documentId (.ok document), .apply documentId edits s.revision (.error e)] (.error e)
  /-- The batch is applied, and the work goes on. -/
  | applied {plan : Snapshot → Except Failure (List Edit)} {next : Snapshot → Agenda α}
      {document : Json} {s : Snapshot} {edits : List Edit} {calls : List StoreEvent}
      {result : Except Failure α}
      (hread : Snapshot.ofDocument document documentId options.tabId = .ok s)
      (hplan : plan s = .ok edits) (hedits : edits ≠ []) (reply : Json)
      (hnext : Conducts options documentId (next s) calls result) :
      Conducts options documentId (.step plan next)
        (.fetch documentId (.ok document) ::
          .apply documentId edits s.revision (.ok reply) :: calls) result

section Conducts

variable {α β : Type} {options : FillOptions} {documentId : Json} {calls : List StoreEvent}

theorem Conducts.map {a : Agenda α} {result : Except Failure α} (f : α → β)
    (h : Conducts options documentId a calls result) :
    Conducts options documentId (a.map f) calls (result.map f) := by
  induction h with
  | finish result => exact .finish _
  | unfetched e => exact .unfetched e
  | unread hread => exact .unread hread
  | unplanned hread hplan => exact .unplanned hread hplan
  | idle hread hplan hnext => exact .idle hread hplan (congrArg (Agenda.map f) hnext)
  | refused hread hplan hedits e => exact .refused hread hplan hedits e
  | applied hread hplan hedits reply _ ih => exact .applied hread hplan hedits reply ih

/-- A step begins with reading the document, and goes on only if that succeeds. -/
theorem Conducts.step_inv {plan : Snapshot → Except Failure (List Edit)}
    {next : Snapshot → Agenda α} {result : Except Failure α}
    (h : Conducts options documentId (.step plan next) calls result) :
    (∃ e, calls = [.fetch documentId (.error e)] ∧ result = .error e) ∨
      ∃ document rest, calls = .fetch documentId (.ok document) :: rest ∧
        ((∃ e, Snapshot.ofDocument document documentId options.tabId = .error e ∧ rest = [] ∧
            result = .error e) ∨
          ∃ s, Snapshot.ofDocument document documentId options.tabId = .ok s) := by
  cases h with
  | unfetched e => exact .inl ⟨e, rfl, rfl⟩
  | unread hread => exact .inr ⟨_, _, rfl, .inl ⟨_, hread, rfl, rfl⟩⟩
  | unplanned hread => exact .inr ⟨_, _, rfl, .inr ⟨_, hread⟩⟩
  | idle hread => exact .inr ⟨_, _, rfl, .inr ⟨_, hread⟩⟩
  | refused hread => exact .inr ⟨_, _, rfl, .inr ⟨_, hread⟩⟩
  | applied hread => exact .inr ⟨_, _, rfl, .inr ⟨_, hread⟩⟩

/-- How a step goes on once the document has been read depends only on what is planned from it and
what comes next. -/
theorem conducts_read_iff {plan : Snapshot → Except Failure (List Edit)}
    {next : Snapshot → Agenda α} {document : Json} {s : Snapshot}
    (hread : Snapshot.ofDocument document documentId options.tabId = .ok s)
    {result : Except Failure α} :
    Conducts options documentId (.step plan next) (.fetch documentId (.ok document) :: calls)
        result ↔
      (∃ e, plan s = .error e ∧ calls = [] ∧ result = .error e) ∨
      (plan s = .ok [] ∧ next s = .finish result ∧ calls = []) ∨
      ∃ edits, plan s = .ok edits ∧ edits ≠ [] ∧
        ((∃ e, calls = [.apply documentId edits s.revision (.error e)] ∧ result = .error e) ∨
          ∃ reply rest, calls = .apply documentId edits s.revision (.ok reply) :: rest ∧
            Conducts options documentId (next s) rest result) := by
  constructor
  · intro h
    generalize hall : StoreEvent.fetch documentId (.ok document) :: calls = all at h
    have hsame : ∀ {document' s' rest},
        StoreEvent.fetch documentId (.ok document) :: calls = .fetch documentId (.ok document') ::
          rest → Snapshot.ofDocument document' documentId options.tabId = .ok s' →
        calls = rest ∧ s = s' := by
      intro document' s' rest heq hread'
      obtain ⟨hfetch, rfl⟩ := List.cons.inj heq
      obtain rfl := Except.ok.inj (StoreEvent.fetch_inj.1 hfetch).2
      exact ⟨rfl, Except.ok.inj (hread.symm.trans hread')⟩
    cases h with
    | unfetched e =>
      exact absurd (StoreEvent.fetch_inj.1 (List.cons.inj hall).1).2 (by simp)
    | unread hread' =>
      obtain rfl := Except.ok.inj (StoreEvent.fetch_inj.1 (List.cons.inj hall).1).2
      exact absurd (hread.symm.trans hread') (by simp)
    | unplanned hread' hplan =>
      obtain ⟨rfl, rfl⟩ := hsame hall hread'
      exact .inl ⟨_, hplan, rfl, rfl⟩
    | idle hread' hplan hnext =>
      obtain ⟨rfl, rfl⟩ := hsame hall hread'
      exact .inr (.inl ⟨hplan, hnext, rfl⟩)
    | refused hread' hplan hedits e =>
      obtain ⟨rfl, rfl⟩ := hsame hall hread'
      exact .inr (.inr ⟨_, hplan, hedits, .inl ⟨e, rfl, rfl⟩⟩)
    | applied hread' hplan hedits reply hnext =>
      obtain ⟨rfl, rfl⟩ := hsame hall hread'
      exact .inr (.inr ⟨_, hplan, hedits, .inr ⟨reply, _, rfl, hnext⟩⟩)
  · rintro (⟨e, hplan, rfl, rfl⟩ | ⟨hplan, hnext, rfl⟩ |
      ⟨edits, hplan, hedits, ⟨e, rfl, rfl⟩ | ⟨reply, rest, rfl, hnext⟩⟩)
    · exact .unplanned hread hplan
    · exact .idle hread hplan hnext
    · exact .refused hread hplan hedits e
    · exact .applied hread hplan hedits reply hnext

/-- What is made of the result of an agenda makes no difference to its requests. -/
theorem Conducts.of_map {a : Agenda α} {f : α → β} {result : Except Failure β}
    (h : Conducts options documentId (a.map f) calls result) :
    ∃ r : Except Failure α, Conducts options documentId a calls r ∧ result = r.map f := by
  induction a generalizing calls with
  | finish r =>
    rw [Agenda.map] at h
    cases h
    exact ⟨r, .finish r, rfl⟩
  | step plan next ih =>
    rw [Agenda.map] at h
    cases h with
    | unfetched e => exact ⟨.error e, .unfetched e, rfl⟩
    | unread hread => exact ⟨.error _, .unread hread, rfl⟩
    | unplanned hread hplan => exact ⟨.error _, .unplanned hread hplan, rfl⟩
    | idle hread hplan hnext =>
      obtain ⟨r, hr, rfl⟩ := Agenda.map_eq_finish.1 hnext
      exact ⟨r, .idle hread hplan hr, rfl⟩
    | refused hread hplan hedits e => exact ⟨.error e, .refused hread hplan hedits e, rfl⟩
    | applied hread hplan hedits reply hnext =>
      obtain ⟨r, hr, hresult⟩ := ih _ hnext
      exact ⟨r, .applied hread hplan hedits reply hr, hresult⟩

/-- A step that always has something to send sends it, if the work ends well. -/
theorem Conducts.step_ok_inv {plan : Snapshot → Except Failure (List Edit)}
    {next : Snapshot → Agenda α} {a : α} (hplan : ∀ s, plan s ≠ .ok [])
    (h : Conducts options documentId (.step plan next) calls (.ok a)) :
    ∃ document s edits reply rest,
      calls = .fetch documentId (.ok document) ::
        .apply documentId edits s.revision (.ok reply) :: rest ∧
      Snapshot.ofDocument document documentId options.tabId = .ok s ∧ plan s = .ok edits ∧
      Conducts options documentId (next s) rest (.ok a) := by
  generalize hresult : Except.ok a = result at h
  cases h with
  | unfetched e => exact absurd hresult (by simp)
  | unread hread => exact absurd hresult (by simp)
  | unplanned hread hplan => exact absurd hresult (by simp)
  | idle hread hempty hnext => exact absurd hempty (hplan _)
  | refused hread hplan hedits e => exact absurd hresult (by simp)
  | applied hread hplan hedits reply hnext =>
    exact ⟨_, _, _, reply, _, rfl, hread, hplan, hresult ▸ hnext⟩

/-- An agenda that is found out by reading the document is gone through from the document that was
read. It may be that nothing is left to do then. -/
theorem Conducts.afterReading_inv {work : Snapshot → Agenda α} {result : Except Failure α}
    (h : Conducts options documentId (.afterReading work) calls result) :
    (∃ answer e, calls = [.fetch documentId answer] ∧
        (answer.bind fun document => Snapshot.ofDocument document documentId options.tabId) =
          .error e ∧ result = .error e) ∨
      ∃ document rest s, calls = .fetch documentId (.ok document) :: rest ∧
        Snapshot.ofDocument document documentId options.tabId = .ok s ∧
        (Conducts options documentId (work s) calls result ∨
          rest = [] ∧ Conducts options documentId (work s) [] result) := by
  rcases h.step_inv with
    ⟨e, rfl, rfl⟩ | ⟨document, rest, rfl, ⟨e, hread, rfl, rfl⟩ | ⟨s, hread⟩⟩
  · exact .inl ⟨.error e, e, rfl, rfl, rfl⟩
  · exact .inl ⟨.ok document, e, rfl, hread, rfl⟩
  refine .inr ⟨document, rest, s, rfl, hread, ?_⟩
  have hafter := (conducts_read_iff hread).1 h
  cases hwork : work s with
  | step plan next =>
    rw [hwork] at hafter
    exact .inl ((conducts_read_iff hread).2 hafter)
  | finish r =>
    rw [hwork] at hafter
    rcases hafter with ⟨e, hplan, rfl, rfl⟩ | ⟨hplan, hnext, rfl⟩ | ⟨edits, hplan, hedits, -⟩
    · cases r with
      | error e' =>
        obtain rfl := Except.error.inj hplan
        exact .inr ⟨rfl, .finish _⟩
      | ok a => exact absurd hplan (by simp [Agenda.plan])
    · obtain rfl := Agenda.finish.inj hnext
      exact .inr ⟨rfl, .finish _⟩
    · cases r with
      | error e' => exact absurd hplan (by simp [Agenda.plan])
      | ok a => exact absurd (Except.ok.inj hplan).symm hedits

end Conducts

/-! ## Batches move what they can -/

/-- The edits that fill a section table lengthen the document by a number. -/
theorem totalShift_planTableFill {table : Table} {layout : TableLayout} {start stop : Int}
    {edits : List Edit}
    (h : planTableFill table layout (some (.int start, .int stop)) = .ok edits) :
    ∃ n, Edit.totalShift edits = .ok n := by
  obtain ⟨-, before, done, -, rfl, hfills, -⟩ := planTableFill_split h
  refine exists_totalShift fun e he => ?_
  rcases List.mem_append.1 he with he | he
  · cases hfills e he with
    | text _ t => exact ⟨t.units, rfl⟩
    | merge | textStyle | alignment | borders | width => exact ⟨0, rfl⟩
  · obtain rfl := List.mem_singleton.1 he
    exact ⟨_, rfl⟩

/-- Inserting the table of a section lengthens the document by a number. -/
theorem totalShift_insertTable (data : Section) (style : LayoutStyle) (index : Int) :
    ∃ n, Edit.totalShift [.insertTable (.int index) (data.layout style).rowCount
      (data.layout style).columnCount] = .ok n := by
  obtain ⟨g, hg, -⟩ := exists_geometry_layout data index style
  refine exists_totalShift fun e he => ?_
  obtain rfl := List.mem_singleton.1 he
  exact ⟨g.size, by rw [Edit.shift, hg]; rfl⟩

namespace Template

/-! ## Filling variables -/

/-- The agenda that fills the variables and asset sections of a document. It ends with the edits
that fill them. -/
def fillAgenda (options : FillOptions) (values : ReadValues) (assets : List AssetSection) :
    Agenda (List Edit) :=
  .step (fun s => planFill options values assets (.ofLinear s.linear)) fun s =>
    .finish (planFill options values assets (.ofLinear s.linear))

/-- Edits that replace texts move nothing that is known. -/
theorem totalShift_planFill {options : FillOptions} {values : ReadValues}
    {assets : List AssetSection} {scan : TemplateScan} {edits : List Edit}
    (h : planFill options values assets scan = .ok edits) :
    ∃ n, Edit.totalShift edits = .ok n := by
  have hblocks : ∀ (rendered : Text) (seen : List Text) (blocks : List AssetBlock),
      ∀ e ∈ blockEdits rendered seen blocks, e.shift = .ok 0 := by
    intro rendered seen blocks
    induction blocks generalizing seen with
    | nil => exact fun e he => absurd he List.not_mem_nil
    | cons b rest ih =>
      by_cases hseen : b.name ∈ seen
      · rw [show blockEdits rendered seen (b :: rest) = _ from if_pos hseen]
        exact ih seen
      · rw [show blockEdits rendered seen (b :: rest) = _ from if_neg hseen]
        exact List.forall_mem_cons.2 ⟨rfl, ih _⟩
  simp only [planFill, bind_eq_ok_iff, liftM_fault_eq_ok_iff, pure_eq_ok_iff] at h
  obtain ⟨blocks, hplan, entries, -, rfl⟩ := h
  refine exists_totalShift fun e he => ⟨0, ?_⟩
  rcases List.mem_append.1 he with he | he
  · rw [planBlocks] at hplan
    split at hplan
    · obtain rfl := Except.ok.inj hplan
      exact absurd he List.not_mem_nil
    · obtain ⟨rendered, -, rfl⟩ := map_eq_ok_iff.1 hplan
      exact hblocks _ _ _ e he
  · obtain ⟨entry, -, he⟩ := List.mem_flatMap.1 he
    obtain ⟨spelling, -, rfl⟩ := List.mem_map.1 he
    rfl

/-! ## Rendering section tables -/

/-- The batch that inserts a table at a section marker. -/
def planInsertion (snapshot : Snapshot) (ordinal : Nat) (name : Text) (layout : TableLayout) :
    Except Failure (List Edit) := do
  let (index, _) ← markerRange snapshot ordinal name
  return [.insertTable (.int index) layout.rowCount layout.columnCount]

/-- The batch that fills the table which was inserted at a section marker, planned from what was
read before the insertion and after it. -/
def planInsertedAt (before after : Snapshot) (ordinal : Nat) (name : Text) (layout : TableLayout) :
    Except Failure (List Edit) := do
  let (index, _) ← markerRange before ordinal name
  planInserted after ordinal name layout index

/-- The agenda that renders section markers which are listed from the last one to the first. It ends
with the names of the markers that got a table, and the markers that got none. -/
def markersAgenda (style : LayoutStyle) (sections : SectionData) :
    List (SectionMarker × Nat) → Agenda (List Text × List SkippedSection)
  | [] => .finish (.ok ([], []))
  | (marker, ordinal) :: rest =>
    match selectSection marker sections with
    | .error f => .finish (.error (.fault f))
    | .ok (.error skipped) =>
      (markersAgenda style sections rest).map fun r => (r.1, r.2 ++ [skipped])
    | .ok (.ok data) =>
      .step (fun before => planInsertion before ordinal marker.name (data.layout style))
        fun before =>
      .step (fun after => planInsertedAt before after ordinal marker.name (data.layout style))
        fun _ =>
      (markersAgenda style sections rest).map fun r => (r.1 ++ [marker.name], r.2)

/-- The agenda that renders the section tables of a document. -/
def renderAgenda (style : LayoutStyle) (sections : SectionData) :
    Agenda (List Text × List SkippedSection) :=
  .afterReading fun s =>
    markersAgenda style sections (TemplateScan.ofLinear s.linear).sectionMarkers.zipIdx.reverse

/-- What became of the section markers of a document, by name. -/
def RenderedSections.report (r : RenderedSections) : List Text × List SkippedSection :=
  (r.rendered, r.skipped)

section Runs

variable {options : FillOptions} {documentId : Json} {events : List StoreEvent}

theorem conducts_fillVariables {values : ReadValues} {assets : List AssetSection}
    {result : Except Failure AppliedBatch}
    (h : Action.Runs (fillVariables options documentId values assets) events result) :
    Locked documentId (fun calls (result : Except Failure AppliedBatch) =>
      Conducts options documentId (fillAgenda options values assets) calls
        (result.map AppliedBatch.edits)) events result := by
  refine Locked.imp (runs_withDocument_iff.1 h) fun calls hrun => ?_
  rcases runs_fetchSnapshot_bind.1 hrun with
    ⟨e, rfl, rfl⟩ | ⟨document, rest, rfl, ⟨e, hread, rfl, rfl⟩ | ⟨s, hread, hrest⟩⟩
  · exact .unfetched e
  · exact .unread hread
  rcases Action.runs_lift_bind.1 hrest with ⟨e, hplan, rfl, rfl⟩ | ⟨edits, hplan, hsend⟩
  · exact .unplanned hread hplan
  by_cases hedits : edits = []
  · subst hedits
    obtain ⟨rfl, rfl⟩ := Action.runs_pure.1 hsend
    exact .idle hread hplan (congrArg Agenda.finish hplan)
  obtain ⟨n, hshift⟩ := totalShift_planFill hplan
  rw [← bind_pure (applyEdits documentId edits s.revision)] at hsend
  rcases (runs_applyEdits_bind hedits hshift).1 hsend with
    ⟨e, rfl, rfl⟩ | ⟨reply, calls, rfl, hend⟩
  · exact .refused hread hplan hedits e
  · obtain ⟨rfl, rfl⟩ := Action.runs_pure.1 hend
    exact .applied hread hplan hedits reply (hplan ▸ .finish _)

/-- A snapshot that is still good is the one that was read last. -/
inductive Fresh (options : FillOptions) (documentId : Json) :
    Option Snapshot → List StoreEvent → Prop where
  | unread : Fresh options documentId none []
  | read {document : Json} {s : Snapshot}
      (h : Snapshot.ofDocument document documentId options.tabId = .ok s) :
      Fresh options documentId (some s) [.fetch documentId (.ok document)]

/-- The agenda of work that goes on from a snapshot that is still good, if there is one. -/
def resumed {α : Type} (a : Agenda α) : Option Snapshot → Agenda α
  | none => a
  | some _ => .afterReading fun _ => a

theorem map_resumed {α β : Type} (f : α → β) (a : Agenda α) (fresh : Option Snapshot) :
    (resumed a fresh).map f = resumed (a.map f) fresh := by
  cases fresh with
  | none => rfl
  | some s => exact Agenda.map_afterReading f _

theorem Fresh.conducts_finish {α : Type} {fresh : Option Snapshot} {lead : List StoreEvent}
    (h : Fresh options documentId fresh lead) (result : Except Failure α) :
    Conducts options documentId (resumed (.finish result) fresh) lead result := by
  cases h with
  | unread => exact .finish result
  | read hread =>
    cases result with
    | error e => exact .unplanned hread rfl
    | ok a => exact .idle hread rfl rfl

/-- Rendering one section marker goes through two steps of an agenda, from the document that its
snapshot was read from. -/
theorem conducts_renderMarker {α β : Type} {document : Json} {s : Snapshot}
    (hread : Snapshot.ofDocument document documentId options.tabId = .ok s) {ordinal : Nat}
    {name : Text} {data : Section} {k : AppliedBatch × AppliedBatch → Action documentStore α}
    {f : α → β} {rest : Agenda β}
    (hk : ∀ batches calls result, Action.Runs (k batches) calls result →
      Conducts options documentId rest calls (result.map f))
    {result : Except Failure α}
    (h : Action.Runs (renderMarker options documentId ordinal name (data.layout options.style) s >>=
      k) events result) :
    Conducts options documentId
      (.step (fun before => planInsertion before ordinal name (data.layout options.style))
        fun before =>
        .step (fun after => planInsertedAt before after ordinal name (data.layout options.style))
          fun _ => rest)
      (.fetch documentId (.ok document) :: events) (result.map f) := by
  rw [renderMarker, bind_assoc] at h
  rcases Action.runs_lift_bind.1 h with ⟨e, hplace, rfl, rfl⟩ | ⟨⟨index, stop⟩, hplace, hinsert⟩
  · exact .unplanned hread (by rw [planInsertion, hplace]; rfl)
  have hinsertion : planInsertion s ordinal name (data.layout options.style) =
      .ok [.insertTable (.int index) (data.layout options.style).rowCount
        (data.layout options.style).columnCount] := by
    rw [planInsertion, hplace]
    rfl
  obtain ⟨m, hm⟩ := totalShift_insertTable data options.style index
  simp only [bind_assoc] at hinsert
  rcases (runs_applyEdits_bind (by simp) hm).1 hinsert with ⟨e, rfl, rfl⟩ | ⟨reply, _, rfl, hfetch⟩
  · exact .refused hread hinsertion (by simp) e
  refine .applied hread hinsertion (by simp) reply ?_
  rcases runs_fetchSnapshot_bind.1 hfetch with
    ⟨e, rfl, rfl⟩ | ⟨document', rest', rfl, ⟨e, hread', rfl, rfl⟩ | ⟨after, hread', hafter⟩⟩
  · exact .unfetched e
  · exact .unread hread'
  have hplanned : planInsertedAt s after ordinal name (data.layout options.style) =
      planInserted after ordinal name (data.layout options.style) index := by
    rw [planInsertedAt, hplace]
    rfl
  rcases Action.runs_lift_bind.1 hafter with ⟨e, hplan, rfl, rfl⟩ | ⟨fill, hplan, hfill⟩
  · exact .unplanned hread' (hplanned.trans hplan)
  obtain ⟨table, -, htable⟩ := planInserted_inv hplan
  obtain ⟨start, stop, hfilling⟩ := planFilling_inv htable
  have hne := planInserted_ne_nil hplan
  obtain ⟨n, hn⟩ := totalShift_planTableFill hfilling
  rcases (runs_applyEdits_bind hne hn).1 hfill with ⟨e, rfl, rfl⟩ | ⟨reply', calls, rfl, hend⟩
  · exact .refused hread' (hplanned.trans hplan) hne e
  · exact .applied hread' (hplanned.trans hplan) hne reply' (hk _ _ _ hend)

/-- Every run over some section markers goes through their agenda. -/
theorem conducts_renderMarkers {sections : SectionData} {markers : List (SectionMarker × Nat)}
    {fresh : Option Snapshot} {lead : List StoreEvent}
    (hfresh : Fresh options documentId fresh lead) {result : Except Failure RenderedSections}
    (h : Action.Runs (renderMarkers options documentId sections fresh markers) events result) :
    Conducts options documentId (resumed (markersAgenda options.style sections markers) fresh)
      (lead ++ events) (result.map RenderedSections.report) := by
  induction markers generalizing fresh lead events result with
  | nil =>
    obtain ⟨rfl, rfl⟩ := Action.runs_pure.1 h
    rw [List.append_nil]
    exact hfresh.conducts_finish _
  | cons entry rest ih =>
    obtain ⟨marker, ordinal⟩ := entry
    rw [renderMarkers] at h
    rw [markersAgenda]
    rcases Action.runs_lift_bind.1 h with ⟨e, hselect, rfl, rfl⟩ | ⟨selected, hselect, hcase⟩
    · obtain ⟨f, hfault, rfl⟩ := liftM_fault_eq_error_iff.1 hselect
      rw [hfault, List.append_nil]
      exact hfresh.conducts_finish _
    rw [liftM_fault_eq_ok_iff.1 hselect]
    cases selected with
    | error skipped =>
      obtain ⟨r, hrun, rfl⟩ := Action.runs_bind_pure.1 hcase
      have hrest := (ih hfresh hrun).map fun r => (r.1, r.2 ++ [skipped])
      rw [map_resumed] at hrest
      cases r <;> exact hrest
    | ok data =>
      have hlater : ∀ (batches : AppliedBatch × AppliedBatch) calls result,
          Action.Runs (do
            let r ← renderMarkers options documentId sections none rest
            return { r with
              rendered := r.rendered ++ [marker.name]
              batches := batches.1 :: batches.2 :: r.batches }) calls result →
          Conducts options documentId
            ((markersAgenda options.style sections rest).map fun r => (r.1 ++ [marker.name], r.2))
            calls (result.map RenderedSections.report) := by
        intro batches calls result hrun
        obtain ⟨r, hothers, rfl⟩ := Action.runs_bind_pure.1 hrun
        have hrest := (ih .unread hothers).map fun r => (r.1 ++ [marker.name], r.2)
        cases r <;> exact hrest
      -- a marker behind one that got a table needs the document to be read again
      cases hfresh with
      | read hread => exact conducts_renderMarker hread hlater hcase
      | unread =>
        rcases runs_fetchSnapshot_bind.1 hcase with
          ⟨e, rfl, rfl⟩ | ⟨document, _, rfl, ⟨e, hread, rfl, rfl⟩ | ⟨s, hread, hmarker⟩⟩
        · exact .unfetched e
        · exact .unread hread
        · exact conducts_renderMarker hread hlater hmarker

/-- Every run over the section markers of a document goes through its agenda. -/
theorem conducts_renderSections {sections : SectionData} {result : Except Failure RenderedSections}
    (h : Action.Runs (renderSections options documentId sections) events result) :
    Locked documentId (fun calls (result : Except Failure RenderedSections) =>
      Conducts options documentId (renderAgenda options.style sections) calls
        (result.map RenderedSections.report)) events result := by
  refine Locked.imp (runs_withDocument_iff.1 h) fun calls hrun => ?_
  rcases runs_fetchSnapshot_bind.1 hrun with
    ⟨e, rfl, rfl⟩ | ⟨document, rest, rfl, ⟨e, hread, rfl, rfl⟩ | ⟨s, hread, hmarkers⟩⟩
  · exact .unfetched e
  · exact .unread hread
  · exact (conducts_read_iff hread).2
      ((conducts_read_iff hread).1 (conducts_renderMarkers (.read hread) hmarkers))

end Runs

end Template

end DocTemplate
