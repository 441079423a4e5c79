import DocTemplate.Proofs.Template.Discipline
import DocTemplate.Template.Generate

/-!
# Requests of generating a document

A document is generated from a template by copying it and filling the copy in two stages, each of
which can be left out. The template is named in the request for the copy, which comes first, and
never again: all requests of the stages are for the copy (`Disciplined.worksOn`). Within a stage the
requests are those of its agenda, under the lock of the copy (`Stage`), so what is known of an
agenda carries over to the whole run.
-/

namespace DocTemplate

namespace StoreEvent

/-- A document is copied. -/
def copy (documentId title : Json) (answer : Except Failure Json) : StoreEvent :=
  ⟨.copy documentId title, answer⟩

theorem copy_inj {documentId documentId' title title' : Json}
    {answer answer' : Except Failure Json} :
    copy documentId title answer = copy documentId' title' answer' ↔
      documentId = documentId' ∧ title = title' ∧ answer = answer' := by
  constructor
  · intro h
    cases h
    exact ⟨rfl, rfl, rfl⟩
  · rintro ⟨rfl, rfl, rfl⟩
    rfl

theorem apply_ne_copy {documentId documentId' revision title : Json} {edits : List Edit}
    {answer answer' : Except Failure Json} :
    apply documentId edits revision answer ≠ copy documentId' title answer' := by
  intro h
  cases h

/-- The request is part of work on this document: its lock is taken or given back, it is read, or a
batch is applied to it. -/
inductive WorksOn (documentId : Json) : StoreEvent → Prop where
  | acquire : WorksOn documentId (.acquire documentId)
  | release : WorksOn documentId (.release documentId)
  | fetch (answer : Except Failure Json) : WorksOn documentId (.fetch documentId answer)
  | apply (edits : List Edit) (revision : Json) (answer : Except Failure Json) :
      WorksOn documentId (.apply documentId edits revision answer)

/-- The store is called. Locks are not part of it. -/
def isCall : StoreEvent → Bool
  | ⟨.acquire _, _⟩ => false
  | ⟨.release _, _⟩ => false
  | _ => true

theorem WorksOn.eq_of_apply {documentId documentId' revision : Json} {edits : List Edit}
    {answer : Except Failure Json}
    (h : WorksOn documentId (.apply documentId' edits revision answer)) :
    documentId' = documentId := by
  generalize hevent : StoreEvent.apply documentId' edits revision answer = event at h
  cases h with
  | acquire => exact absurd hevent apply_ne_acquire
  | release => exact absurd hevent apply_ne_release
  | fetch => exact absurd hevent apply_ne_fetch
  | apply => exact (apply_inj.1 hevent).1

end StoreEvent

/-- The requests by which the store is called. -/
def storeCalls (events : List StoreEvent) : List StoreEvent :=
  events.filter StoreEvent.isCall

/-- A failure of the store is its last answer, and it is what the work ends with. -/
def StopsAtFailure {α : Type} (calls : List StoreEvent) (result : Except Failure α) : Prop :=
  ∀ i call e, calls[i]? = some call → call.Fails e → i + 1 = calls.length ∧ result = .error e

section StoreCalls

variable {α β : Type} {documentId : Json} {calls : List StoreEvent} {result : Except Failure α}

theorem storeCalls_append (before after : List StoreEvent) :
    storeCalls (before ++ after) = storeCalls before ++ storeCalls after :=
  List.filter_append before after

theorem stopsAtFailure_nil : StopsAtFailure [] result := by
  intro i call e hcall
  exact absurd hcall (by simp)

/-- What is made of a result at the end makes no difference to what fails. -/
theorem StopsAtFailure.map (h : StopsAtFailure calls result) (f : α → β) :
    StopsAtFailure calls (result.map f) := by
  intro i call e hcall hfails
  obtain ⟨hlast, rfl⟩ := h i call e hcall hfails
  exact ⟨hlast, rfl⟩

/-- Calls can be followed by more calls if they end well. -/
theorem StopsAtFailure.append {before after : List StoreEvent} {a : α}
    {final : Except Failure β} (hbefore : StopsAtFailure before (.ok a : Except Failure α))
    (hafter : StopsAtFailure after final) : StopsAtFailure (before ++ after) final := by
  intro i call e hcall hfails
  by_cases hi : i < before.length
  · rw [List.getElem?_append_left hi] at hcall
    exact absurd (hbefore i call e hcall hfails).2 (by simp)
  · have hi := Nat.le_of_not_lt hi
    rw [List.getElem?_append_right hi] at hcall
    obtain ⟨hlast, hresult⟩ := hafter _ call e hcall hfails
    refine ⟨?_, hresult⟩
    rw [List.length_append]
    omega

/-- Requests that take turns are all calls for the document. -/
theorem Disciplined.worksOn (h : Disciplined documentId calls result) :
    ∀ call ∈ calls, call.WorksOn documentId ∧ call.isCall = true := by
  intro call hmem
  obtain ⟨i, hi⟩ := List.getElem?_of_mem hmem
  rcases Nat.even_or_odd' i with ⟨k, rfl | rfl⟩
  · obtain ⟨answer, rfl⟩ := h.fetches k call hi
    exact ⟨.fetch answer, rfl⟩
  · obtain ⟨_, revision, edits, answer, -, -, rfl⟩ := h.applies k call hi
    exact ⟨.apply edits revision answer, rfl⟩

/-- Work that keeps the discipline works on its document only, and stops at the first failure. -/
theorem worksOn_of_locked {events : List StoreEvent}
    {work : List StoreEvent → Except Failure α → Prop} (h : Locked documentId work events result)
    (hwork : ∀ calls, work calls result → Disciplined documentId calls result) :
    (∀ event ∈ events, event.WorksOn documentId) ∧ StopsAtFailure (storeCalls events) result := by
  unfold Locked at h
  split at h
  · obtain ⟨rfl, rfl⟩ := h
    exact ⟨by simp, stopsAtFailure_nil⟩
  · obtain ⟨calls, hcalls, rfl⟩ := h
    have hdisciplined := hwork calls hcalls
    have hkept := hdisciplined.worksOn
    constructor
    · intro event hevent
      rcases List.mem_cons.1 hevent with rfl | hevent
      · exact .acquire
      rcases List.mem_append.1 hevent with hevent | hevent
      · exact (hkept event hevent).1
      · obtain rfl := List.mem_singleton.1 hevent
        exact .release
    · have hcalls : storeCalls (.acquire documentId :: (calls ++ [.release documentId])) =
          calls := by
        have hfilter : calls.filter StoreEvent.isCall = calls :=
          List.filter_eq_self.2 fun call hcall => (hkept call hcall).2
        rw [storeCalls, List.filter_cons_of_neg Bool.false_ne_true, List.filter_append, hfilter,
          List.filter_cons_of_neg Bool.false_ne_true, List.filter_nil, List.append_nil]
      rw [hcalls]
      exact hdisciplined.stops

end StoreCalls

namespace Template

/-! ## Stages -/

/-- A stage that is left out asks for nothing. One that is entered goes through its agenda while it
holds the lock of the document. -/
def Stage {α β : Type} (leftOut : Bool) (options : FillOptions) (documentId : Json)
    (agenda : Agenda β) (report : α → β) (events : List StoreEvent)
    (result : Except Failure (Option α)) : Prop :=
  if leftOut then events = [] ∧ result = .ok none
  else ∃ r : Except Failure α, result = r.map some ∧
    Locked documentId (KeepsTo options documentId agenda report) events r

section Stages

variable {α β : Type} {leftOut : Bool} {options : FillOptions} {documentId : Json}
  {agenda : Agenda β} {report : α → β} {events : List StoreEvent}

theorem Stage.worksOn {result : Except Failure (Option α)}
    (h : Stage leftOut options documentId agenda report events result) :
    (∀ event ∈ events, event.WorksOn documentId) ∧ StopsAtFailure (storeCalls events) result := by
  unfold Stage at h
  split at h
  · obtain ⟨rfl, rfl⟩ := h
    exact ⟨by simp, stopsAtFailure_nil⟩
  · obtain ⟨r, rfl, hlocked⟩ := h
    obtain ⟨hworks, hstops⟩ := worksOn_of_locked hlocked fun calls hkeeps => hkeeps.toDisciplined
    exact ⟨hworks, hstops.map some⟩

/-- A run of a stage, if every run of its work goes through the agenda. -/
theorem stage_of_runs {work : Action documentStore α} {result : Except Failure (Option α)}
    (hwork : ∀ events result, Action.Runs work events result →
      Locked documentId (KeepsTo options documentId agenda report) events result)
    (h : Action.Runs (if leftOut then pure none else some <$> work) events result) :
    Stage leftOut options documentId agenda report events result := by
  unfold Stage
  cases leftOut with
  | true => exact Action.runs_pure.1 h
  | false =>
    rw [if_neg Bool.false_ne_true, map_eq_pure_bind] at h
    obtain ⟨r, hrun, rfl⟩ := Action.runs_bind_pure.1 h
    exact ⟨r, rfl, hwork events r hrun⟩

end Stages

/-! ## Runs -/

/-- What is asked for after a template was copied: the two stages of filling the copy. The second
one begins only if the first one ended well. -/
def FillsCopy (options : FillOptions) (documentId title : Json) (values : ReadValues)
    (assets : List AssetSection) (sections : SectionData) (events : List StoreEvent)
    (result : Except Failure GeneratedDocument) : Prop :=
  ∃ fills renders filled, events = fills ++ renders ∧
    Stage (values.isEmpty && assets.isEmpty) options documentId (fillAgenda options values assets)
      AppliedBatch.edits fills filled ∧
    match filled with
    | .error e => renders = [] ∧ result = .error e
    | .ok filled => ∃ rendered, Stage sections.isEmpty options documentId
        (renderAgenda options.style sections) RenderedSections.report renders rendered ∧
        result = rendered.map fun rendered => ⟨documentId, title, filled, rendered⟩

section Runs

variable {options : FillOptions} {documentId title : Json} {values : ReadValues}
  {assets : List AssetSection} {sections : SectionData} {events : List StoreEvent}
  {result : Except Failure GeneratedDocument}

/-- Filling a copy works on the copy only, and stops at the first failure of the store. -/
theorem FillsCopy.worksOn
    (h : FillsCopy options documentId title values assets sections events result) :
    (∀ event ∈ events, event.WorksOn documentId) ∧ StopsAtFailure (storeCalls events) result := by
  obtain ⟨fills, renders, filled, rfl, hfills, hrest⟩ := h
  obtain ⟨hworks, hstops⟩ := hfills.worksOn
  cases filled with
  | error e =>
    obtain ⟨rfl, rfl⟩ := hrest
    rw [List.append_nil]
    exact ⟨hworks, fun i call e' hcall hfails =>
      ⟨(hstops i call e' hcall hfails).1, congrArg Except.error
        (Except.error.inj (hstops i call e' hcall hfails).2)⟩⟩
  | ok filled =>
    obtain ⟨rendered, hrenders, rfl⟩ := hrest
    obtain ⟨hworks', hstops'⟩ := hrenders.worksOn
    refine ⟨fun event hevent => ?_, ?_⟩
    · exact (List.mem_append.1 hevent).elim (hworks event) (hworks' event)
    · rw [storeCalls_append]
      exact hstops.append (hstops'.map _)

/-- The two stages of filling a copy, one after the other. -/
def fillCopy (options : FillOptions) (documentId title : Json) (values : ReadValues)
    (assets : List AssetSection) (sections : SectionData) :
    Action documentStore GeneratedDocument :=
  (if values.isEmpty && assets.isEmpty then pure none
    else some <$> fillVariables options documentId values assets) >>= fun filled =>
  (if sections.isEmpty then pure none
    else some <$> renderSections options documentId sections) >>= fun rendered =>
  pure ⟨documentId, title, filled, rendered⟩

theorem generateDocument_eq (templateId : Json) :
    generateDocument options templateId title values assets sections =
      Store.copy templateId title >>= fun documentId =>
        fillCopy options documentId title values assets sections := by
  unfold generateDocument fillCopy
  cases values.isEmpty && assets.isEmpty <;> cases sections.isEmpty <;> rfl

theorem fillsCopy_of_runs
    (h : Action.Runs (fillCopy options documentId title values assets sections) events result) :
    FillsCopy options documentId title values assets sections events result := by
  have hfill : ∀ events result, Action.Runs (fillVariables options documentId values assets)
      events result → Locked documentId (KeepsTo options documentId
        (fillAgenda options values assets) AppliedBatch.edits) events result :=
    fun events result h => (conducts_fillVariables h).imp fun calls hcalls =>
      keepsTo_of_conducts hcalls
  have hrender : ∀ events result, Action.Runs (renderSections options documentId sections)
      events result → Locked documentId (KeepsTo options documentId
        (renderAgenda options.style sections) RenderedSections.report) events result :=
    fun events result h => (conducts_renderSections h).imp fun calls hcalls =>
      keepsTo_of_conducts hcalls
  rcases Action.runs_bind.1 h with ⟨e, hfills, rfl⟩ | ⟨fills, filled, renders, rfl, hfills, hrest⟩
  · exact ⟨events, [], .error e, (List.append_nil events).symm, stage_of_runs hfill hfills, rfl,
      rfl⟩
  · obtain ⟨rendered, hrenders, rfl⟩ := Action.runs_bind_pure.1 hrest
    exact ⟨fills, renders, .ok filled, rfl, stage_of_runs hfill hfills, rendered,
      stage_of_runs hrender hrenders, rfl⟩

end Runs

/-- **Generating a document leaves the template alone**: whatever a store answers, the template is
copied first. If that fails, nothing else is asked for. Otherwise all other requests are for the
copy: they are those of filling its variables, if there are values or asset sections, followed by
those of rendering its section tables, if there are sections. Nothing is asked for after a failure.
So no batch is applied to the template, unless the store gave its id to the copy. -/
theorem fillsCopy_generateDocument {options : FillOptions} {templateId title : Json}
    {values : ReadValues} {assets : List AssetSection} {sections : SectionData}
    {events : List StoreEvent} {result : Except Failure GeneratedDocument}
    (h : Action.Runs (generateDocument options templateId title values assets sections) events
      result) :
    ∃ answer rest, events = .copy templateId title answer :: rest ∧
      match answer with
      | .error e => rest = [] ∧ result = .error e
      | .ok documentId =>
        FillsCopy options documentId title values assets sections rest result ∧
        (∀ event ∈ rest, event.WorksOn documentId) ∧
        StopsAtFailure (storeCalls rest) result ∧
        (documentId ≠ templateId → ∀ edits revision answer,
          StoreEvent.apply templateId edits revision answer ∉ events) := by
  rw [generateDocument_eq, Action.runs_bind] at h
  simp only [Store.copy, Action.runs_request] at h
  rcases h with ⟨e, ⟨answer, rfl, hanswer⟩, rfl⟩ |
    ⟨_, documentId, rest, rfl, ⟨answer, rfl, hanswer⟩, h⟩
  · obtain rfl : answer = .error e := hanswer.symm
    exact ⟨.error e, [], rfl, rfl, rfl⟩
  obtain rfl : answer = .ok documentId := hanswer.symm
  have hcopy := fillsCopy_of_runs h
  obtain ⟨hworks, hstops⟩ := hcopy.worksOn
  refine ⟨.ok documentId, rest, rfl, hcopy, hworks, hstops, ?_⟩
  intro hfresh edits revision answer hmem
  rcases List.mem_cons.1 hmem with heq | hmem
  · exact StoreEvent.apply_ne_copy heq
  · exact hfresh (hworks _ hmem).eq_of_apply.symm

/-- A store that gives an id to each copy, and always answers with the same document. -/
def answerCopy (requests : Nat) : (r : StoreRequest) → r.Answer
  | .copy .. => .ok (.str "copy-1")
  | r => answerFrom (documentData "rev-1" [lineData 1 7 "\x7b\x7ba\x7d\x7d\n"])
      (documentData "rev-1" [lineData 1 7 "\x7b\x7ba\x7d\x7d\n"]) requests r

/-- A run that generates a document of one line from a template. -/
def generateLine : List StoreEvent × Except Failure GeneratedDocument :=
  (ExceptT.run (generateDocument {} (.str "doc-1") (.str "Report") (.ok oneValue) []
    pairSection)).answered answerCopy 0

theorem fillsCopy_line :
    Action.Runs (generateDocument {} (.str "doc-1") (.str "Report") (.ok oneValue) [] pairSection)
      generateLine.1 generateLine.2 ∧
    ∃ rest, generateLine.1 = .copy (.str "doc-1") (.str "Report") (.ok (.str "copy-1")) :: rest ∧
      rest.length = 7 ∧ (∀ event ∈ rest, event.WorksOn (.str "copy-1")) ∧
      ∀ edits revision answer,
        StoreEvent.apply (.str "doc-1") edits revision answer ∉ generateLine.1 := by
  have hrun : Action.Runs (generateDocument {} (.str "doc-1") (.str "Report") (.ok oneValue) []
      pairSection) generateLine.1 generateLine.2 := Program.runs_answered _ 0 _
  obtain ⟨answer, rest, hevents, hrest⟩ := fillsCopy_generateDocument hrun
  have hfirst : generateLine.1[0]? =
      some (.copy (.str "doc-1") (.str "Report") (.ok (.str "copy-1"))) := by cbv
  have hlength : generateLine.1.length = 8 := by cbv
  rw [hevents] at hfirst hlength
  obtain rfl : answer = .ok (.str "copy-1") :=
    (StoreEvent.copy_inj.1 (Option.some.inj hfirst)).2.2
  obtain ⟨-, hworks, -, hfresh⟩ := hrest
  exact ⟨hrun, rest, hevents, Nat.succ.inj hlength, hworks, hfresh (by simp)⟩

end Template

end DocTemplate
