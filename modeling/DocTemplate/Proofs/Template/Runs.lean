import DocTemplate.Proofs.Failure
import DocTemplate.Proofs.Program
import DocTemplate.Template.Batch

/-!
# Runs against a document store

The events of a run against a document store, and what a run of each of the steps looks like that
every operation on a template is made of: one request for a fetch, one for a batch that is not
empty, and the lock around all work on a document.
-/

namespace DocTemplate

/-- A request to a document store, with its answer. -/
abbrev StoreEvent : Type :=
  documentStore.Event

namespace StoreEvent

/-- The lock of a document is taken. -/
def acquire (documentId : Json) : StoreEvent :=
  ⟨.acquire documentId, ()⟩

/-- The lock of a document is given back. -/
def release (documentId : Json) : StoreEvent :=
  ⟨.release documentId, ()⟩

/-- A document is read. -/
def fetch (documentId : Json) (answer : Except Failure Json) : StoreEvent :=
  ⟨.fetch documentId, answer⟩

/-- A batch of edits is applied. -/
def apply (documentId : Json) (edits : List Edit) (revision : Json)
    (answer : Except Failure Json) : StoreEvent :=
  ⟨.apply documentId edits revision, answer⟩

/-- An empty table is inserted, by a batch of its own. -/
abbrev insertTable (documentId : Json) (index : Int) (rows columns revision : Json)
    (answer : Except Failure Json) : StoreEvent :=
  apply documentId [.insertTable (.int index) rows columns] revision answer

theorem fetch_inj {documentId documentId' : Json} {answer answer' : Except Failure Json} :
    fetch documentId answer = fetch documentId' answer' ↔
      documentId = documentId' ∧ answer = answer' := by
  constructor
  · intro h
    cases h
    exact ⟨rfl, rfl⟩
  · rintro ⟨rfl, rfl⟩
    rfl

theorem apply_inj {documentId documentId' revision revision' : Json} {edits edits' : List Edit}
    {answer answer' : Except Failure Json} :
    apply documentId edits revision answer = apply documentId' edits' revision' answer' ↔
      documentId = documentId' ∧ edits = edits' ∧ revision = revision' ∧ answer = answer' := by
  constructor
  · intro h
    cases h
    exact ⟨rfl, rfl, rfl, rfl⟩
  · rintro ⟨rfl, rfl, rfl, rfl⟩
    rfl

section Distinct

variable {documentId documentId' revision : Json} {edits : List Edit}
  {answer answer' : Except Failure Json}

@[simp] theorem apply_ne_fetch :
    apply documentId edits revision answer ≠ fetch documentId' answer' := by
  intro h
  cases h

@[simp] theorem apply_ne_acquire :
    apply documentId edits revision answer ≠ acquire documentId' := by
  intro h
  cases h

@[simp] theorem apply_ne_release :
    apply documentId edits revision answer ≠ release documentId' := by
  intro h
  cases h

@[simp] theorem fetch_ne_release : fetch documentId answer ≠ release documentId' := by
  intro h
  cases h

end Distinct

end StoreEvent

/-! ## Steps -/

section Steps

variable {documentId : Json} {events : List StoreEvent}

theorem runs_fetchSnapshot {options : FillOptions} {result : Except Failure Snapshot} :
    Action.Runs (Template.fetchSnapshot options documentId) events result ↔
      ∃ answer, events = [.fetch documentId answer] ∧
        result = answer.bind fun document =>
          Snapshot.ofDocument document documentId options.tabId := by
  rw [Template.fetchSnapshot, Action.runs_bind]
  simp only [Store.fetch, Action.runs_request, Action.runs_lift]
  constructor
  · rintro (⟨e, ⟨answer, rfl, rfl⟩, rfl⟩ | ⟨_, document, _, rfl, ⟨answer, rfl, rfl⟩, rfl, rfl⟩)
    · exact ⟨.error e, rfl, rfl⟩
    · exact ⟨.ok document, rfl, rfl⟩
  · rintro ⟨answer, rfl, rfl⟩
    cases answer with
    | error e => exact .inl ⟨e, ⟨.error e, rfl, rfl⟩, rfl⟩
    | ok document => exact .inr ⟨_, document, [], rfl, ⟨.ok document, rfl, rfl⟩, rfl, rfl⟩

theorem runs_applyEdits {edits : List Edit} (hedits : edits ≠ []) {revision : Json}
    {result : Except Failure AppliedBatch}
    (h : Action.Runs (Template.applyEdits documentId edits revision) events result) :
    ∃ answer, events = [.apply documentId edits revision answer] ∧
      ∀ b, result = .ok b → ∃ reply, answer = .ok reply := by
  rw [Template.applyEdits, if_neg (by simpa using hedits), Action.runs_bind] at h
  simp only [Store.apply, Action.runs_request] at h
  rcases h with ⟨e, ⟨answer, rfl, -⟩, rfl⟩ | ⟨_, reply, rest, rfl, ⟨answer, rfl, rfl⟩, h⟩
  · exact ⟨answer, rfl, fun b hb => absurd hb (by simp)⟩
  · rw [Action.runs_bind] at h
    simp only [Action.runs_lift, Action.runs_pure] at h
    rcases h with ⟨e, ⟨rfl, -⟩, rfl⟩ | ⟨_, shift, _, rfl, ⟨rfl, -⟩, rfl, rfl⟩
    · exact ⟨_, rfl, fun b hb => absurd hb (by simp)⟩
    · exact ⟨_, rfl, fun b _ => ⟨reply, rfl⟩⟩

/-- By how much edits lengthen a document, if it is known of each of them. -/
theorem exists_totalShift {edits : List Edit} (h : ∀ e ∈ edits, ∃ n, e.shift = .ok n) :
    ∃ n, Edit.totalShift edits = .ok n := by
  suffices hfrom : ∀ total : Int, ∃ n, edits.foldlM
      (fun total (e : Edit) => return total + (← e.shift)) total = (.ok n : Except Fault Int) from
    hfrom 0
  induction edits with
  | nil => exact fun total => ⟨total, rfl⟩
  | cons e rest ih =>
    intro total
    obtain ⟨hshift, hrest⟩ := List.forall_mem_cons.1 h
    obtain ⟨k, hk⟩ := hshift
    obtain ⟨n, hn⟩ := ih hrest (total + k)
    refine ⟨n, ?_⟩
    rw [List.foldlM_cons, hk]
    exact hn

/-- A step that reads the document: the store can fail, what it answers may be no document, or the
work goes on with what was read. -/
theorem runs_fetchSnapshot_bind {α : Type} {options : FillOptions}
    {k : Snapshot → Action documentStore α} {result : Except Failure α} :
    Action.Runs (Template.fetchSnapshot options documentId >>= k) events result ↔
      (∃ e, events = [.fetch documentId (.error e)] ∧ result = .error e) ∨
        ∃ document rest, events = .fetch documentId (.ok document) :: rest ∧
          ((∃ e, Snapshot.ofDocument document documentId options.tabId = .error e ∧ rest = [] ∧
              result = .error e) ∨
            ∃ s, Snapshot.ofDocument document documentId options.tabId = .ok s ∧
              Action.Runs (k s) rest result) := by
  rw [Action.runs_bind]
  simp only [runs_fetchSnapshot]
  constructor
  · rintro (⟨e, ⟨answer, rfl, hread⟩, rfl⟩ | ⟨_, s, rest, rfl, ⟨answer, rfl, hread⟩, hrest⟩)
    · cases answer with
      | error e' =>
        obtain rfl := Except.error.inj hread
        exact .inl ⟨e, rfl, rfl⟩
      | ok document => exact .inr ⟨document, [], rfl, .inl ⟨e, hread.symm, rfl, rfl⟩⟩
    · cases answer with
      | error e => exact absurd hread (by simp [Except.bind])
      | ok document => exact .inr ⟨document, rest, rfl, .inr ⟨s, hread.symm, hrest⟩⟩
  · rintro (⟨e, rfl, rfl⟩ | ⟨document, rest, rfl, ⟨e, hread, rfl, rfl⟩ | ⟨s, hread, hrest⟩⟩)
    · exact .inl ⟨e, ⟨.error e, rfl, rfl⟩, rfl⟩
    · exact .inl ⟨e, ⟨.ok document, rfl, hread.symm⟩, rfl⟩
    · exact .inr ⟨_, s, rest, rfl, ⟨.ok document, rfl, hread.symm⟩, hrest⟩

/-- A step that applies a batch: the store can refuse it, or the work goes on. -/
theorem runs_applyEdits_bind {α : Type} {edits : List Edit} (hedits : edits ≠ []) {n : Int}
    (hshift : Edit.totalShift edits = .ok n) {revision : Json}
    {k : AppliedBatch → Action documentStore α} {result : Except Failure α} :
    Action.Runs (Template.applyEdits documentId edits revision >>= k) events result ↔
      (∃ e, events = [.apply documentId edits revision (.error e)] ∧ result = .error e) ∨
        ∃ reply rest, events = .apply documentId edits revision (.ok reply) :: rest ∧
          Action.Runs (k ⟨documentId, edits, n⟩) rest result := by
  have hrun : ∀ {events : List StoreEvent} {applied : Except Failure AppliedBatch},
      Action.Runs (Template.applyEdits documentId edits revision) events applied ↔
        ∃ answer, events = [.apply documentId edits revision answer] ∧
          applied = answer.map fun _ => ⟨documentId, edits, n⟩ := by
    intro events applied
    rw [Template.applyEdits, if_neg (by simpa using hedits), Action.runs_bind]
    simp only [Store.apply, Action.runs_request, Action.runs_bind, hshift, Action.runs_lift,
      Action.runs_pure]
    constructor
    · rintro (⟨e, ⟨answer, rfl, rfl⟩, rfl⟩ | ⟨_, reply, _, rfl, ⟨answer, rfl, rfl⟩, h⟩)
      · exact ⟨.error e, rfl, rfl⟩
      · rcases h with ⟨e, ⟨-, h⟩, -⟩ | ⟨_, shift, _, rfl, ⟨rfl, h⟩, rfl, rfl⟩
        · obtain ⟨f, hf, -⟩ := liftM_fault_eq_error_iff.1 h.symm
          exact absurd hf (by simp)
        · obtain rfl := Except.ok.inj h
          exact ⟨.ok reply, rfl, rfl⟩
    · rintro ⟨answer, rfl, rfl⟩
      cases answer with
      | error e => exact .inl ⟨e, ⟨.error e, rfl, rfl⟩, rfl⟩
      | ok reply =>
        exact .inr ⟨_, reply, [], rfl, ⟨.ok reply, rfl, rfl⟩,
          .inr ⟨[], n, [], rfl, ⟨rfl, rfl⟩, rfl, rfl⟩⟩
  rw [Action.runs_bind]
  simp only [hrun]
  constructor
  · rintro (⟨e, ⟨answer, rfl, h⟩, rfl⟩ | ⟨_, b, rest, rfl, ⟨answer, rfl, h⟩, hrest⟩)
    · cases answer with
      | error e' =>
        obtain rfl := Except.error.inj h
        exact .inl ⟨e, rfl, rfl⟩
      | ok reply => exact absurd h (by simp [Except.map])
    · cases answer with
      | error e => exact absurd h (by simp [Except.map])
      | ok reply =>
        obtain rfl := Except.ok.inj h
        exact .inr ⟨reply, rest, rfl, hrest⟩
  · rintro (⟨e, rfl, rfl⟩ | ⟨reply, rest, rfl, hrest⟩)
    · exact .inl ⟨e, ⟨.error e, rfl, rfl⟩, rfl⟩
    · exact .inr ⟨_, _, rest, rfl, ⟨.ok reply, rfl, rfl⟩, hrest⟩

/-- Work that is done while holding the lock of a document, as it shows: an id that cannot be looked
up is refused, or the work takes place between taking the lock and giving it back. -/
def Locked {α : Type} (documentId : Json) (work : List StoreEvent → Except Failure α → Prop)
    (events : List StoreEvent) (result : Except Failure α) : Prop :=
  match Store.checkId documentId with
  | .error f => events = [] ∧ result = .error (.fault f)
  | .ok () => ∃ calls, work calls result ∧
      events = StoreEvent.acquire documentId :: (calls ++ [StoreEvent.release documentId])

theorem Locked.imp {α : Type} {p q : List StoreEvent → Except Failure α → Prop}
    {result : Except Failure α} (h : Locked documentId p events result)
    (himp : ∀ calls, p calls result → q calls result) : Locked documentId q events result := by
  unfold Locked at h ⊢
  split at h
  · exact h
  · obtain ⟨calls, hwork, hevents⟩ := h
    exact ⟨calls, himp calls hwork, hevents⟩

/-- Work that ends well was done under the lock of the document. -/
theorem Locked.ok_inv {α : Type} {work : List StoreEvent → Except Failure α → Prop} {a : α}
    (h : Locked documentId work events (.ok a)) :
    ∃ calls, work calls (.ok a) ∧
      events = StoreEvent.acquire documentId :: (calls ++ [StoreEvent.release documentId]) := by
  unfold Locked at h
  split at h
  · exact absurd h.2 (by simp)
  · exact h

theorem runs_withDocument_iff {α : Type} {work : Action documentStore α}
    {result : Except Failure α} :
    Action.Runs (Store.withDocument documentId work) events result ↔
      Locked documentId (Action.Runs work) events result := by
  rw [Store.withDocument, Locked]
  cases Store.checkId documentId with
  | error f => exact Program.runs_done.trans (and_congr_right fun _ => eq_comm)
  | ok id =>
    constructor
    · intro h
      obtain ⟨_, _, _, rfl, hlock, hwork⟩ := Program.runs_bind.1 h
      obtain ⟨calls, final, _, rfl, hcalls, hend⟩ := Program.runs_bind.1 hwork
      obtain ⟨_, _, _, rfl, hunlock, hresult⟩ := Program.runs_bind.1 hend
      obtain ⟨rfl, rfl⟩ := Program.runs_done.1 hresult
      obtain rfl := Program.runs_request.1 hlock
      obtain rfl := Program.runs_request.1 hunlock
      exact ⟨calls, hcalls, rfl⟩
    · rintro ⟨calls, hcalls, rfl⟩
      refine Program.runs_bind.2 ⟨[_], (), _, rfl, Program.runs_request.2 rfl, ?_⟩
      refine Program.runs_bind.2 ⟨calls, result, [_], rfl, hcalls, ?_⟩
      exact Program.runs_bind.2 ⟨[_], (), [], rfl, Program.runs_request.2 rfl, .done _⟩

/-- Work on a document that can be locked takes place between taking the lock and giving it
back. -/
theorem runs_withDocument {α : Type} {work : Action documentStore α} {result : Except Failure α}
    (h : Action.Runs (Store.withDocument documentId work) events result) :
    events = [] ∨ ∃ inner, Action.Runs work inner result ∧
      events = StoreEvent.acquire documentId :: (inner ++ [StoreEvent.release documentId]) := by
  have hlocked := runs_withDocument_iff.1 h
  rw [Locked] at hlocked
  split at hlocked
  · exact .inl hlocked.1
  · exact .inr hlocked

end Steps

end DocTemplate
