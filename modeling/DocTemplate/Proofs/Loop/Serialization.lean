import DocTemplate.Proofs.Loop.Rights
import DocTemplate.Proofs.Loop.Tasks
import DocTemplate.Proofs.Template.InsertedTable

/-!
# Work on a document is serialized

Calls that change documents run as tasks on one event loop. From the fetch that a batch is planned
from until the store has applied the batch, no other task applies anything to the document
(`serialized_calls`).

What carries this is a correspondence at every time: the locks that a task holds are those of the
document in its rights (`fits_rightsAt`, by induction on the time). A task whose rights are for a
document at two times, and which takes no lock in between, holds the lock of the document throughout
(`holding_of_no_take`); and two tasks never hold the lock of one document (`eq_of_holding`).
-/

namespace DocTemplate

/-! ## The rights of a task -/

namespace Rights

/-- The documents whose locks are held. -/
def documents : Rights → List Json
  | free _ => []
  | holding documentId _ _ => [documentId]

/-- How often a lock may still be taken. -/
def turnsLeft : Rights → Nat
  | free turns => turns
  | holding _ _ turns => turns

/-- The document has not been read since its lock was taken. -/
def Unread : Rights → Prop
  | free _ => True
  | holding _ read _ => read = false

/-- The rights are those of a task that had this many turns at first. -/
def Within (turns : Nat) : Rights → Prop
  | free left => left ≤ turns
  | holding _ _ left => left < turns

theorem eq_free_of_permit_acquire {reads : Bool} {rights : Rights} {documentId : Json}
    (h : rights.Permit reads (.acquire documentId)) : ∃ turns, rights = .free (turns + 1) := by
  cases rights with
  | free turns => exact ⟨turns - 1, by rw [Nat.sub_add_cancel h]⟩
  | holding => exact h.elim

theorem eq_holding_of_permit_release {reads : Bool} {rights : Rights} {documentId : Json}
    (h : rights.Permit reads (.release documentId)) :
    ∃ read turns, rights = .holding documentId read turns := by
  cases rights with
  | free turns => exact h.elim
  | holding documentId' read turns =>
    obtain rfl : documentId = documentId' := h
    exact ⟨read, turns, rfl⟩

theorem eq_holding_of_permit_fetch {reads : Bool} {rights : Rights} {documentId : Json}
    (h : rights.Permit reads (.fetch documentId)) :
    reads = true ∧ ∃ read turns, rights = .holding documentId read turns := by
  cases rights with
  | free turns => exact h.elim
  | holding documentId' read turns =>
    obtain ⟨rfl, hreads⟩ : documentId = documentId' ∧ reads = true := h
    exact ⟨hreads, read, turns, rfl⟩

theorem eq_holding_of_permit_apply {reads : Bool} {rights : Rights} {documentId revision : Json}
    {edits : List Edit} (h : rights.Permit reads (.apply documentId edits revision)) :
    ∃ read turns, rights = .holding documentId read turns ∧ (reads = true → read = true) := by
  cases rights with
  | free turns => exact h.elim
  | holding documentId' read turns =>
    obtain ⟨rfl, hread⟩ : documentId = documentId' ∧ (reads = true → read = true) := h
    exact ⟨read, turns, rfl, hread⟩

end Rights

/-- The rights of a task after an event of it. A call of the store counts when it starts, a lock
when it is taken. -/
def LoopEvent.advance {ι : Type} : LoopEvent ι → Rights → Rights
  | takes _ documentId, rights => rights.after (.acquire documentId)
  | frees _ documentId, rights => rights.after (.release documentId)
  | starts _ request, rights => if request.isLocking then rights else rights.after request
  | _, rights => rights

section Advance

variable {ι : Type} {event : LoopEvent ι} {rights : Rights}

/-- A task that may not work on a document may do so only after it has got a lock. -/
theorem advance_free {turns : Nat} (h : ∀ documentId, event ≠ .takes event.task documentId) :
    event.advance (.free turns) = .free turns := by
  cases event with
  | takes task documentId => exact absurd rfl (h documentId)
  | starts task request => cases request <;> rfl
  | _ => rfl

/-- A task that may work on a document keeps to this document until it gives the lock back. -/
theorem advance_holding (event : LoopEvent ι) (documentId : Json) (read : Bool) (turns : Nat) :
    event.advance (.holding documentId read turns) = .free turns ∨
      ∃ read', event.advance (.holding documentId read turns) =
        .holding documentId read' turns := by
  cases event with
  | frees task documentId' => exact .inl rfl
  | starts task request => cases request <;> exact .inr ⟨_, rfl⟩
  | _ => exact .inr ⟨_, rfl⟩

theorem Rights.Unread.advance (hrights : rights.Unread)
    (h : ∀ documentId, event ≠ .starts event.task (.fetch documentId)) :
    (event.advance rights).Unread := by
  cases event with
  | starts task request =>
    cases request with
    | fetch documentId => exact absurd rfl (h documentId)
    | _ => cases rights <;> exact hrights
  | takes =>
    cases rights with
    | free => rfl
    | holding => exact hrights
  | frees => cases rights <;> exact trivial
  | _ => exact hrights

theorem turnsLeft_advance_le (event : LoopEvent ι) (rights : Rights) :
    (event.advance rights).turnsLeft ≤ rights.turnsLeft := by
  cases event with
  | takes task documentId =>
    cases rights with
    | free turns => exact Nat.sub_le turns 1
    | holding => exact Nat.le_refl _
  | frees => cases rights <;> exact Nat.le_refl _
  | starts task request => cases rights <;> cases request <;> exact Nat.le_refl _
  | _ => exact Nat.le_refl _

theorem Rights.Within.advance {turns : Nat} (hrights : rights.Within turns) (hturns : 0 < turns)
    (event : LoopEvent ι) : (event.advance rights).Within turns := by
  cases event with
  | takes task documentId =>
    cases rights with
    | free left =>
      have hleft : left ≤ turns := hrights
      show left - 1 < turns
      omega
    | holding => exact hrights
  | frees =>
    cases rights with
    | free => exact hrights
    | holding => exact Nat.le_of_lt hrights
  | starts task request => cases rights <;> cases request <;> exact hrights
  | _ => exact hrights

end Advance

/-- The rights of a task fit what it holds and what is left of its program. -/
def Task.Fits (reads : Bool) (rights : Rights) (task : Task) : Prop :=
  task.held.map Prod.fst = rights.documents ∧
    match task with
    | .ready _ program => Permits reads (fun _ => True) rights program
    | .waiting _ documentId _ next => rights.Permit reads (.acquire documentId) ∧
      ∀ answer, Permits reads (fun _ => True) (rights.after (.acquire documentId)) (next answer)
    | .calling _ request next => rights.Permit reads request ∧
      ∀ answer, Permits reads (fun _ => True) rights (next answer)

/-- A call of the store is within the rights that it leaves. -/
theorem Rights.permit_after {reads : Bool} {rights : Rights} {request : StoreRequest}
    (h : rights.Permit reads request) (hcall : request.isLocking = false) :
    (rights.after request).Permit reads request ∧
      (rights.after request).documents = rights.documents := by
  cases request with
  | acquire => exact Bool.noConfusion hcall
  | release => exact Bool.noConfusion hcall
  | fetch documentId =>
    obtain ⟨hreads, read, turns, rfl⟩ := eq_holding_of_permit_fetch h
    exact ⟨⟨rfl, hreads⟩, rfl⟩
  | apply => cases rights <;> exact ⟨h, rfl⟩
  | copy => cases rights <;> exact ⟨h, rfl⟩
  | exportHtml => cases rights <;> exact h.elim
  | exportPdf => cases rights <;> exact h.elim

section Fits

variable {ι Id : Type} [DecidableEq ι] [DecidableEq Id] {key : Json → Id} {loop : Nat}
  {s s' : LoopState ι Id} {i : ι} {event : LoopEvent ι} {reads : Bool} {rights : Rights}

/-- Resuming a task keeps its rights fitting. -/
theorem Task.Fits.resumed (h : (s.tasks i).Fits reads rights)
    (hstep : Resumed key loop s i event s') : (s'.tasks i).Fits reads (event.advance rights) := by
  obtain ⟨hheld, hprogram⟩ := h
  cases hstep with
  | asks htask =>
    rw [htask] at hheld hprogram
    rw [LoopState.setTask_tasks_self]
    exact ⟨hheld, permits_ask hprogram⟩
  | takes htask hfree =>
    rw [htask] at hheld hprogram
    obtain ⟨hpermit, hnext⟩ := hprogram
    obtain ⟨turns, rfl⟩ := Rights.eq_free_of_permit_acquire hpermit
    rw [LoopState.setTask_tasks_self]
    refine ⟨?_, hnext ()⟩
    exact congrArg (List.cons _) hheld
  | frees htask =>
    rw [htask] at hheld hprogram
    obtain ⟨hpermit, hnext⟩ := permits_ask hprogram
    obtain ⟨read, turns, rfl⟩ := Rights.eq_holding_of_permit_release hpermit
    rw [LoopState.setTask_tasks_self]
    exact ⟨(List.cons.inj hheld).2, hnext ()⟩
  | starts htask hcall =>
    rw [htask] at hheld hprogram
    obtain ⟨hpermit, hnext⟩ := permits_ask hprogram
    obtain ⟨hafter, hdocuments⟩ := Rights.permit_after hpermit hcall
    rw [LoopState.setTask_tasks_self, LoopEvent.advance, hcall]
    exact ⟨hheld.trans hdocuments.symm, hafter, hnext⟩
  | ends htask answer =>
    rw [htask] at hheld hprogram
    rw [LoopState.setTask_tasks_self]
    exact ⟨hheld, hprogram.2 answer⟩

end Fits

/-! ## Runs of calls -/

section Calls

variable {ι Id : Type} [DecidableEq ι] [DecidableEq Id]

/-- Calls as tasks that have not begun. Any locks may have been made before. -/
def startOfCalls (registry : LockRegistry Id) (calls : ι → Template.Call) : LoopState ι Id where
  tasks := fun i => .ready [] (calls i).program
  registry := registry

/-- The rights of a task of a run at each time. -/
def LoopRun.rightsAt (run : LoopRun ι Id) (i : ι) (turns : Nat) : Nat → Rights
  | 0 => .free turns
  | time + 1 =>
    match run.eventAt time with
    | some event =>
      if event.task = i then event.advance (run.rightsAt i turns time)
      else run.rightsAt i turns time
    | none => run.rightsAt i turns time

/-- A task starts to apply a batch to a document at a time, or is doing so. -/
def LoopRun.Applies (run : LoopRun ι Id) (i : ι) (documentId : Json) (time : Nat) : Prop :=
  ∃ target edits revision, run.key target = run.key documentId ∧
    (run.eventAt time = some (.starts i (.apply target edits revision)) ∨
      ∃ held next, (run.stateAt time).tasks i = .calling held (.apply target edits revision) next)

variable {run : LoopRun ι Id} {i j : ι} {turns time : Nat}

/-- The rights of a task change by its own events only. -/
theorem rightsAt_succ (run : LoopRun ι Id) (i : ι) (turns time : Nat) :
    (run.rightsAt i turns (time + 1) = run.rightsAt i turns time ∧
        ∀ event, run.eventAt time = some event → event.task ≠ i) ∨
      ∃ event, run.eventAt time = some event ∧ event.task = i ∧
        run.rightsAt i turns (time + 1) = event.advance (run.rightsAt i turns time) := by
  rw [LoopRun.rightsAt]
  cases hevent : run.eventAt time with
  | none => exact .inl ⟨rfl, by simp⟩
  | some event =>
    by_cases htask : event.task = i
    · exact .inr ⟨event, rfl, htask, if_pos htask⟩
    · refine .inl ⟨if_neg htask, ?_⟩
      rintro _ ⟨rfl⟩
      exact htask

theorem rightsAt_of_eventAt (i : ι) {event : LoopEvent ι} (h : run.eventAt time = some event)
    (htask : event.task = i) :
    run.rightsAt i turns (time + 1) = event.advance (run.rightsAt i turns time) := by
  rw [LoopRun.rightsAt, h]
  exact if_pos htask

/-- What every event of a task preserves stays true of its rights. -/
theorem rightsAt_induction {P : Rights → Prop} {first last : Nat} (hle : first ≤ last)
    (hfirst : P (run.rightsAt i turns first))
    (hadvance : ∀ time event rights, first ≤ time → time < last →
      run.eventAt time = some event → event.task = i → P rights → P (event.advance rights)) :
    P (run.rightsAt i turns last) := by
  induction last, hle using Nat.le_induction with
  | base => exact hfirst
  | succ last hle ih =>
    have hlast := ih fun time event rights hge hlt =>
      hadvance time event rights hge (Nat.lt_succ_of_lt hlt)
    rcases rightsAt_succ run i turns last with ⟨hsame, -⟩ | ⟨event, hevent, htask, hrights⟩
    · rwa [hsame]
    · rw [hrights]
      exact hadvance last event _ hle (Nat.lt_succ_self last) hevent htask hlast

/-- A task that has the rights to a document at two times, and gets no lock in between, has them
throughout. -/
theorem holding_of_no_take {first last : Nat} {documentId documentId' : Json} {read read' : Bool}
    {left left' : Nat}
    (hfirst : run.rightsAt i turns first = .holding documentId read left)
    (hlast : run.rightsAt i turns last = .holding documentId' read' left')
    (htake : ∀ time, first ≤ time → time < last → ∀ documentId,
      run.eventAt time ≠ some (.takes i documentId))
    (hge : first ≤ time) (hle : time ≤ last) :
    ∃ read, run.rightsAt i turns time = .holding documentId read left := by
  induction time, hge using Nat.le_induction with
  | base => exact ⟨read, hfirst⟩
  | succ time hge ih =>
    obtain ⟨read, hrights⟩ := ih (Nat.le_of_succ_le hle)
    rcases rightsAt_succ run i turns time with ⟨hsame, -⟩ | ⟨event, -, -, hadvance⟩
    · exact ⟨read, hsame.trans hrights⟩
    rw [hrights] at hadvance
    rcases advance_holding event documentId read left with hfree | ⟨read'', hholding⟩
    · -- once the lock is given back, it stays so
      have hfree' := rightsAt_induction (P := (· = .free left)) hle (hadvance.trans hfree) (by
        rintro time' event' _ hge' hlt' hevent' rfl rfl
        refine advance_free fun documentId heq => ?_
        exact htake time' (by omega) hlt' documentId (hevent'.trans (congrArg some heq)))
      exact absurd (hlast.symm.trans hfree') (by simp)
    · exact ⟨read'', hadvance.trans hholding⟩

/-- A task whose lock is taken anew has not read the document, until it does. -/
theorem unread_of_no_fetch {first last : Nat} (hle : first ≤ last)
    (hfirst : (run.rightsAt i turns first).Unread)
    (hfetch : ∀ time, first ≤ time → time < last → ∀ documentId,
      run.eventAt time ≠ some (.starts i (.fetch documentId))) :
    (run.rightsAt i turns last).Unread := by
  refine rightsAt_induction hle hfirst ?_
  rintro time event rights hge hlt hevent rfl hrights
  refine hrights.advance fun documentId heq => ?_
  exact hfetch time hge hlt documentId (hevent.trans (congrArg some heq))

/-- A task that holds a lock has taken one of its turns. -/
theorem lt_of_holding (hturns : 0 < turns) {documentId : Json} {read : Bool} {left : Nat}
    (h : run.rightsAt i turns time = .holding documentId read left) : left < turns := by
  have hwithin : (run.rightsAt i turns time).Within turns :=
    rightsAt_induction (Nat.zero_le time)
      (show Rights.Within turns (.free turns) from Nat.le_refl turns)
      fun _ event rights _ _ _ _ hrights => hrights.advance hturns event
  rw [h] at hwithin
  exact hwithin

/-- While a task waits for the answer of the store, its rights stay as they are. -/
theorem rightsAt_of_calling (turns : Nat) {start : Nat} {held : HeldLocks} {request : StoreRequest}
    {next : request.Answer → Program documentStore Unit}
    (htask : (run.stateAt start).tasks i = .calling held request next) (hle : start ≤ time)
    (hopen : ∀ k, start ≤ k → k < time → ∀ event, run.eventAt k ≠ some (.ends i event)) :
    run.rightsAt i turns time = run.rightsAt i turns start := by
  suffices h : (run.stateAt time).tasks i = .calling held request next ∧
      run.rightsAt i turns time = run.rightsAt i turns start from h.2
  induction time, hle using Nat.le_induction with
  | base => exact ⟨htask, rfl⟩
  | succ time hle ih =>
    obtain ⟨hcalling, hrights⟩ := ih fun k hge hlt => hopen k hge (Nat.lt_succ_of_lt hlt)
    have hother : ∀ event, run.eventAt time = some event → event.task ≠ i := by
      intro event hevent heq
      have hstep := LoopRun.resumed_of_eventAt hevent
      rw [heq] at hstep
      obtain ⟨answer, rfl⟩ := hstep.ends_of_calling hcalling
      exact hopen time hle (Nat.lt_succ_self time) answer hevent
    constructor
    · rcases run.stateAt_succ time with ⟨-, hsame⟩ | ⟨event, hevent, hstep⟩
      · rw [hsame, hcalling]
      · rw [hstep.tasks_of_ne (Ne.symm (hother event hevent)), hcalling]
    · rcases rightsAt_succ run i turns time with ⟨hsame, -⟩ | ⟨event, hevent, htask, -⟩
      · exact hsame.trans hrights
      · exact absurd htask (hother event hevent)

section Rights

variable {registry : LockRegistry Id} {calls : ι → Template.Call}

/-- The rights of a call fit its task at every time. -/
theorem fits_rightsAt (hstart : run.start = startOfCalls registry calls) (i : ι) (time : Nat) :
    ((run.stateAt time).tasks i).Fits (calls i).reads
      (run.rightsAt i (calls i).turns time) := by
  induction time with
  | zero =>
    rw [LoopRun.stateAt, hstart]
    exact ⟨rfl, Template.permits_program (calls i)⟩
  | succ time ih =>
    rcases run.stateAt_succ time with ⟨hnone, hsame⟩ | ⟨event, hevent, hstep⟩
    · rw [hsame, LoopRun.rightsAt, hnone]
      exact ih
    · rw [LoopRun.rightsAt, hevent]
      by_cases htask : event.task = i
      · subst htask
        simp only [if_true]
        exact ih.resumed hstep
      · simp only [if_neg htask]
        rw [hstep.tasks_of_ne (Ne.symm htask)]
        exact ih

theorem locksHeld_stateAt (hstart : run.start = startOfCalls registry calls) (time : Nat) :
    LocksHeld run.key run.loop (run.stateAt time) := by
  refine run.stateAt_induction ?_ (fun _ _ _ _ => LocksHeld.resumed) time
  rw [hstart]
  exact locksHeld_of_unheld fun _ => rfl

/-- Two tasks never hold the lock of one document. -/
theorem eq_of_holding (hstart : run.start = startOfCalls registry calls)
    {documentId documentId' : Json} {read read' : Bool} {left left' : Nat}
    (hi : run.rightsAt i (calls i).turns time = .holding documentId read left)
    (hj : run.rightsAt j (calls j).turns time = .holding documentId' read' left')
    (hkey : run.key documentId = run.key documentId') : i = j := by
  have hlock : ∀ {i documentId read left},
      run.rightsAt i (calls i).turns time = .holding documentId read left →
      ∃ lock, (documentId, lock) ∈ ((run.stateAt time).tasks i).held := by
    intro i documentId read left hrights
    have hheld := (fits_rightsAt hstart i time).1
    rw [hrights] at hheld
    obtain ⟨⟨_, lock⟩, hsingle, rfl⟩ := List.map_eq_singleton_iff.1 hheld
    exact ⟨lock, hsingle ▸ List.mem_cons_self⟩
  obtain ⟨lock, hlocki⟩ := hlock hi
  obtain ⟨lock', hlockj⟩ := hlock hj
  have hlocks := locksHeld_stateAt hstart time
  have hentry := hlocks.registered i documentId lock (Task.mem_claimed_of_mem_held hlocki)
  have hentry' := hlocks.registered j documentId' lock' (Task.mem_claimed_of_mem_held hlockj)
  rw [hkey, hentry', Option.some.injEq, DocumentLock.mk.injEq] at hentry
  obtain ⟨-, rfl⟩ := hentry
  exact hlocks.exclusive i j lock' (List.mem_map_of_mem (f := Prod.snd) hlocki)
    (List.mem_map_of_mem (f := Prod.snd) hlockj)

/-- A call of the store is within the rights of the task. -/
theorem permit_of_starts (hstart : run.start = startOfCalls registry calls)
    {request : StoreRequest} (h : run.eventAt time = some (.starts i request)) :
    (run.rightsAt i (calls i).turns time).Permit (calls i).reads request := by
  obtain ⟨held, next, htask, -⟩ := (LoopRun.resumed_of_eventAt h).starts_inv
  have hfits := (fits_rightsAt hstart i time).2
  rw [LoopEvent.task] at htask
  rw [htask] at hfits
  exact (permits_ask hfits).1

/-- A task that applies a batch to a document holds its lock. -/
theorem holding_of_applies (hstart : run.start = startOfCalls registry calls) {documentId : Json}
    (h : run.Applies i documentId time) :
    ∃ target read left, run.rightsAt i (calls i).turns time = .holding target read left ∧
      run.key target = run.key documentId := by
  obtain ⟨target, edits, revision, hkey, hstarts | ⟨held, next, htask⟩⟩ := h
  · obtain ⟨read, left, hrights, -⟩ :=
      Rights.eq_holding_of_permit_apply (permit_of_starts hstart hstarts)
    exact ⟨target, read, left, hrights, hkey⟩
  · have hfits := (fits_rightsAt hstart i time).2
    rw [htask] at hfits
    obtain ⟨read, left, hrights, -⟩ := Rights.eq_holding_of_permit_apply hfits.1
    exact ⟨target, read, left, hrights, hkey⟩

/-- A task that gets a lock has held none, and has a turn for it. -/
theorem eq_free_of_takes (hstart : run.start = startOfCalls registry calls) {documentId : Json}
    (h : run.eventAt time = some (.takes i documentId)) :
    ∃ left, run.rightsAt i (calls i).turns time = .free (left + 1) ∧
      run.rightsAt i (calls i).turns (time + 1) = .holding documentId false left := by
  obtain ⟨held, lock, next, htask⟩ := (LoopRun.resumed_of_eventAt h).takes_inv
  have hfits := (fits_rightsAt hstart i time).2
  rw [LoopEvent.task] at htask
  rw [htask] at hfits
  obtain ⟨left, hrights⟩ := Rights.eq_free_of_permit_acquire hfits.1
  refine ⟨left, hrights, (rightsAt_of_eventAt i h rfl).trans ?_⟩
  rw [hrights]
  rfl

/-- A call that may take a lock once takes none after it has got one. -/
theorem no_take_of_one_turn (hstart : run.start = startOfCalls registry calls)
    (hturns : (calls i).turns = 1) {first : Nat} {documentId : Json} {read : Bool} {left : Nat}
    (hfirst : run.rightsAt i (calls i).turns first = .holding documentId read left)
    (hle : first ≤ time) (documentId' : Json) :
    run.eventAt time ≠ some (.takes i documentId') := by
  intro htakes
  obtain ⟨left', hrights, -⟩ := eq_free_of_takes hstart htakes
  have hlt := lt_of_holding (by omega) hfirst
  have hturn := rightsAt_induction (P := fun rights => rights.turnsLeft ≤ left) hle
    (by rw [hfirst]; exact Nat.le_refl left)
    fun _ event rights _ _ _ _ hrights => (turnsLeft_advance_le event rights).trans hrights
  rw [hrights] at hturn
  have : left' + 1 ≤ left := hturn
  omega

end Rights

/-- What a task does from a fetch to a later batch belongs together: the batch was planned from this
fetch, because there is no other one in between; or both are made by one call that renders section
tables; or by one stage of a call, because no lock is taken in between. -/
def BelongTogether (run : LoopRun ι Id) (calls : ι → Template.Call) (i : ι) (fetch apply : Nat) :
    Prop :=
  (∀ time, fetch < time → time < apply → ∀ documentId,
      run.eventAt time ≠ some (.starts i (.fetch documentId))) ∨
    (∃ options documentId sections, calls i = .renderSections options documentId sections) ∨
    ∀ time, fetch < time → time < apply → ∀ documentId,
      run.eventAt time ≠ some (.takes i documentId)

/-- **Work on a document is serialized**: of any calls that run as tasks on one event loop, in
whatever order these are resumed and whatever is answered, let one read a document and later apply a
batch that belongs together with it. The batch is for this document, and from the time at which the
document is read until the store has applied the batch, no other task starts to apply a batch to the
same document or is doing so. -/
theorem serialized_calls {run : LoopRun ι Id} {registry : LockRegistry Id}
    {calls : ι → Template.Call} (hstart : run.start = startOfCalls registry calls) {i : ι}
    {documentId target revision : Json} {edits : List Edit} {fetch apply : Nat}
    (hfetch : run.eventAt fetch = some (.starts i (.fetch documentId)))
    (happly : run.eventAt apply = some (.starts i (.apply target edits revision)))
    (hlt : fetch < apply) (htogether : BelongTogether run calls i fetch apply) :
    target = documentId ∧ ∀ time, fetch ≤ time →
      (∀ k, apply < k → k < time → ∀ event, run.eventAt k ≠ some (.ends i event)) →
      ∀ j, j ≠ i → ¬ run.Applies j documentId time := by
  obtain ⟨hreads, read, left, hfirst⟩ :=
    Rights.eq_holding_of_permit_fetch (permit_of_starts hstart hfetch)
  obtain ⟨read', left', hlast, hread⟩ :=
    Rights.eq_holding_of_permit_apply (permit_of_starts hstart happly)
  have hread := hread hreads
  -- no lock is taken between the fetch and the batch
  have htake : ∀ time, fetch ≤ time → time < apply → ∀ documentId,
      run.eventAt time ≠ some (.takes i documentId) := by
    intro time hge hltt documentId' htakes
    have hne : fetch ≠ time := by
      rintro rfl
      exact absurd (hfetch.symm.trans htakes) (by simp)
    have hgt : fetch < time := Nat.lt_of_le_of_ne hge hne
    rcases htogether with hone | ⟨options, document, sections, hcall⟩ | hnone
    · obtain ⟨_, -, hafter⟩ := eq_free_of_takes hstart htakes
      have hunread := unread_of_no_fetch (Nat.succ_le_of_lt hltt)
        (show (run.rightsAt i (calls i).turns (time + 1)).Unread by rw [hafter]; rfl)
        fun time' hge' => hone time' (by omega)
      rw [hlast, hread] at hunread
      exact Bool.noConfusion hunread
    · have hturns : (calls i).turns = 1 := by rw [hcall]; rfl
      exact no_take_of_one_turn hstart hturns hfirst hge documentId' htakes
    · exact hnone time hgt hltt documentId' htakes
  have hholding : ∀ time, fetch ≤ time → time ≤ apply →
      ∃ read, run.rightsAt i (calls i).turns time = .holding documentId read left :=
    fun time => holding_of_no_take hfirst hlast htake
  obtain ⟨read'', hrights⟩ := hholding apply hlt.le (Nat.le_refl apply)
  have htarget : target = documentId := by
    have heq := hlast.symm.trans hrights
    exact (Rights.holding.inj heq).1
  refine ⟨htarget, fun time hge hopen j hj happlies => ?_⟩
  -- the lock is held until the store has answered
  have hheld : ∃ read, run.rightsAt i (calls i).turns time = .holding documentId read left := by
    by_cases hle : time ≤ apply
    · exact hholding time hge hle
    obtain ⟨held, next, -, htask⟩ := (LoopRun.resumed_of_eventAt happly).starts_inv
    have hsame := rightsAt_of_calling (calls i).turns htask (show apply + 1 ≤ time by omega)
      fun k hgek => hopen k (by omega)
    refine ⟨read'', hsame.trans ((rightsAt_of_eventAt i happly rfl).trans ?_)⟩
    rw [hrights]
    rfl
  obtain ⟨_, hi⟩ := hheld
  obtain ⟨target', _, _, hj', hkey⟩ := holding_of_applies hstart happlies
  exact hj (eq_of_holding hstart hj' hi hkey)

end Calls

/-! ## Two calls for one document -/

namespace Template

/-- One call renders the section tables of a document, the other one deletes something in it. -/
def twoCalls : Bool → Call
  | true => .renderSections {} (.str "doc-1") pairSection
  | false => .applyBatch (.str "doc-1") [.deleteRange (.int 1) (.int 2)] .null

/-- The text of an id; ids that are no texts are not told apart. -/
def idText : Json → String
  | .str s => s
  | _ => ""

/-- The second call is made while the first one waits for the document, and is resumed once more
before the first one sends a batch. -/
def runOfTwoCalls : LoopRun Bool String where
  key := idText
  loop := 0
  start := startOfCalls {} twoCalls
  schedule := fun time => (time != 3 && time != 5, answerFrom pageBefore pageAfter (time - 4))

theorem serialized_twoCalls :
    runOfTwoCalls.start = startOfCalls {} twoCalls ∧
    runOfTwoCalls.eventAt 2 = some (.starts true (.fetch (.str "doc-1"))) ∧
    runOfTwoCalls.eventAt 3 = some (.asks false (.str "doc-1")) ∧
    runOfTwoCalls.eventAt 6 = some (.starts true (.apply (.str "doc-1")
      [.insertTable (.int 1) (.int 2) (.int 2)] (.str "rev-1"))) ∧
    BelongTogether runOfTwoCalls twoCalls true 2 6 ∧
    ∀ time, 2 ≤ time → time ≤ 7 → ¬ runOfTwoCalls.Applies false (.str "doc-1") time := by
  have hfetch : runOfTwoCalls.eventAt 2 = some (.starts true (.fetch (.str "doc-1"))) := by cbv
  have hasks : runOfTwoCalls.eventAt 3 = some (.asks false (.str "doc-1")) := by cbv
  have happly : runOfTwoCalls.eventAt 6 = some (.starts true (.apply (.str "doc-1")
      [.insertTable (.int 1) (.int 2) (.int 2)] (.str "rev-1"))) := by cbv
  have htogether : BelongTogether runOfTwoCalls twoCalls true 2 6 := .inr (.inl ⟨_, _, _, rfl⟩)
  obtain ⟨-, hserialized⟩ := serialized_calls rfl hfetch happly (by decide) htogether
  exact ⟨rfl, hfetch, hasks, happly, htogether, fun time hge hle =>
    hserialized time hge (fun k _ _ => by omega) false (by decide)⟩

end Template

end DocTemplate
