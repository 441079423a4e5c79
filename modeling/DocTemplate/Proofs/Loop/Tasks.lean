import DocTemplate.Proofs.Program
import DocTemplate.Store.Basic
import DocTemplate.Store.Lock
import Mathlib.Logic.Function.Basic

/-!
# Tasks on an event loop

Any number of programs that use a document store run as tasks on one event loop. A task runs until
it waits: for the lock of a document, or for the answer to a call of the store. Which of the waiting
tasks the loop resumes next, and what the store answers, is left open (`LoopRun`), so what holds of
every run holds for every order in which the tasks can be resumed.

The lock of a document is looked up in the registry when a task asks for it. `resume_inv` says all
that resuming a task can do. From it follows that a lock has one owner, and that tasks which hold or
wait for a lock of one document mean the same lock (`locksHeld_stateAt`): the registry never
replaces an entry that was made on the loop that asks for it.
-/

namespace DocTemplate

/-! ## Tasks -/

/-- The locks that a task holds, each with the document it was taken for; the one that was taken
last comes first. -/
abbrev HeldLocks : Type :=
  List (Json × Nat)

/-- A task: what is left of its program, and the locks that it holds. -/
inductive Task where
  /-- It runs as soon as it is resumed. -/
  | ready (held : HeldLocks) (program : Program documentStore Unit)
  /-- It waits for the lock of a document. -/
  | waiting (held : HeldLocks) (documentId : Json) (lock : Nat)
      (next : Unit → Program documentStore Unit)
  /-- It waits for the answer of the store. -/
  | calling (held : HeldLocks) (request : StoreRequest)
      (next : request.Answer → Program documentStore Unit)

namespace Task

/-- The locks that a task holds. -/
def held : Task → HeldLocks
  | ready held _ => held
  | waiting held .. => held
  | calling held .. => held

/-- The locks that a task holds or waits for. -/
def claimed : Task → HeldLocks
  | waiting held documentId lock _ => (documentId, lock) :: held
  | task => task.held

theorem mem_claimed_of_mem_held {task : Task} {entry : Json × Nat} (h : entry ∈ task.held) :
    entry ∈ task.claimed := by
  cases task with
  | waiting => exact List.mem_cons_of_mem _ h
  | _ => exact h

end Task

/-- What can be seen of the loop when it resumes a task. -/
inductive LoopEvent (ι : Type) where
  /-- The task asks for the lock of a document. -/
  | asks (task : ι) (documentId : Json)
  /-- The task gets the lock of a document. -/
  | takes (task : ι) (documentId : Json)
  /-- The task gives the lock of a document back. -/
  | frees (task : ι) (documentId : Json)
  /-- The task calls the store. -/
  | starts (task : ι) (request : StoreRequest)
  /-- The task gets the answer of the store. -/
  | ends (task : ι) (event : documentStore.Event)

/-- The task that was resumed. -/
def LoopEvent.task {ι : Type} : LoopEvent ι → ι
  | asks task _ => task
  | takes task _ => task
  | frees task _ => task
  | starts task _ => task
  | ends task _ => task

/-- The tasks of a loop, the lock of each document, and the locks that are taken. -/
structure LoopState (ι Id : Type) where
  tasks : ι → Task
  registry : LockRegistry Id
  locked : List Nat := []

/-- How a store answers each request. -/
abbrev StoreAnswers : Type :=
  (request : StoreRequest) → request.Answer

section Loop

variable {ι Id : Type} [DecidableEq ι]

namespace LoopState

/-- The state in which a task has become another one. -/
def setTask (s : LoopState ι Id) (i : ι) (task : Task) : LoopState ι Id :=
  { s with tasks := Function.update s.tasks i task }

@[simp] theorem setTask_tasks_self (s : LoopState ι Id) (i : ι) (task : Task) :
    (s.setTask i task).tasks i = task := by
  unfold setTask
  exact Function.update_self ..

theorem setTask_tasks_of_ne (s : LoopState ι Id) {i j : ι} (h : j ≠ i) (task : Task) :
    (s.setTask i task).tasks j = s.tasks j := by
  unfold setTask
  exact Function.update_of_ne h ..

/-- What holds of every task still does when one of them has become another one of which it holds.
-/
theorem setTask_forall (s : LoopState ι Id) (i : ι) (task : Task) (P : ι → Task → Prop)
    (hi : P i task) (h : ∀ j, j ≠ i → P j (s.tasks j)) :
    ∀ j, P j ((s.setTask i task).tasks j) := by
  intro j
  by_cases hj : j = i
  · rw [hj, setTask_tasks_self]
    exact hi
  · rw [setTask_tasks_of_ne s hj]
    exact h j hj

variable [DecidableEq Id]

/-- Resumes a task; nothing happens if it waits for a lock that is taken, or has come to its end.
Documents are told apart by `key`, and `loop` is the loop that the tasks run on. -/
def resume (key : Json → Id) (loop : Nat) (s : LoopState ι Id) (i : ι) (answers : StoreAnswers) :
    Option (LoopEvent ι × LoopState ι Id) :=
  match s.tasks i with
  | .ready held (.ask (.acquire documentId) next) =>
    let (lock, registry) := s.registry.lockFor loop (key documentId)
    some (.asks i documentId,
      { s.setTask i (.waiting held documentId lock next) with registry })
  | .ready ((_, lock) :: held) (.ask (.release documentId) next) =>
    some (.frees i documentId,
      { s.setTask i (.ready held (next ())) with locked := s.locked.filter (· ≠ lock) })
  | .ready [] (.ask (.release _) _) => none
  | .ready held (.ask request next) =>
    some (.starts i request, s.setTask i (.calling held request next))
  | .ready _ (.done _) => none
  | .waiting held documentId lock next =>
    if lock ∈ s.locked then none
    else some (.takes i documentId,
      { s.setTask i (.ready ((documentId, lock) :: held) (next ())) with
        locked := lock :: s.locked })
  | .calling held request next =>
    some (.ends i ⟨request, answers request⟩, s.setTask i (.ready held (next (answers request))))

end LoopState

variable [DecidableEq Id]

/-! ## What resuming a task does -/

/-- A request for a lock, or to give one back. -/
def StoreRequest.isLocking : StoreRequest → Bool
  | .acquire _ => true
  | .release _ => true
  | _ => false

/-- What resuming a task can do, and what it changes. -/
inductive Resumed (key : Json → Id) (loop : Nat) (s : LoopState ι Id) (i : ι) :
    LoopEvent ι → LoopState ι Id → Prop where
  | asks {held : HeldLocks} {documentId : Json} {next : Unit → Program documentStore Unit}
      (htask : s.tasks i = .ready held (.ask (.acquire documentId) next)) :
      Resumed key loop s i (.asks i documentId)
        { s.setTask i (.waiting held documentId
            (s.registry.lockFor loop (key documentId)).1 next) with
          registry := (s.registry.lockFor loop (key documentId)).2 }
  | takes {held : HeldLocks} {documentId : Json} {lock : Nat}
      {next : Unit → Program documentStore Unit}
      (htask : s.tasks i = .waiting held documentId lock next) (hfree : lock ∉ s.locked) :
      Resumed key loop s i (.takes i documentId)
        { s.setTask i (.ready ((documentId, lock) :: held) (next ())) with
          locked := lock :: s.locked }
  | frees {held : HeldLocks} {lockedId documentId : Json} {lock : Nat}
      {next : Unit → Program documentStore Unit}
      (htask : s.tasks i = .ready ((lockedId, lock) :: held) (.ask (.release documentId) next)) :
      Resumed key loop s i (.frees i documentId)
        { s.setTask i (.ready held (next ())) with locked := s.locked.filter (· ≠ lock) }
  | starts {held : HeldLocks} {request : StoreRequest}
      {next : request.Answer → Program documentStore Unit}
      (htask : s.tasks i = .ready held (.ask request next)) (hcall : request.isLocking = false) :
      Resumed key loop s i (.starts i request) (s.setTask i (.calling held request next))
  | ends {held : HeldLocks} {request : StoreRequest}
      {next : request.Answer → Program documentStore Unit}
      (htask : s.tasks i = .calling held request next) (answer : request.Answer) :
      Resumed key loop s i (.ends i ⟨request, answer⟩) (s.setTask i (.ready held (next answer)))

theorem resume_inv {key : Json → Id} {loop : Nat} {s s' : LoopState ι Id} {i : ι}
    {answers : StoreAnswers} {event : LoopEvent ι}
    (h : s.resume key loop i answers = some (event, s')) : Resumed key loop s i event s' := by
  unfold LoopState.resume at h
  split at h
  · next htask =>
    obtain ⟨rfl, rfl⟩ := Prod.mk.inj (Option.some.inj h)
    exact .asks htask
  · next htask =>
    obtain ⟨rfl, rfl⟩ := Prod.mk.inj (Option.some.inj h)
    exact .frees htask
  · exact absurd h (by simp)
  · next held request next hacquire hrelease hstuck htask =>
    obtain ⟨rfl, rfl⟩ := Prod.mk.inj (Option.some.inj h)
    refine .starts htask ?_
    cases request with
    | acquire documentId => exact (hacquire _ _ rfl HEq.rfl).elim
    | release documentId =>
      match held with
      | [] => exact (hstuck _ _ rfl rfl HEq.rfl).elim
      | (_, _) :: _ => exact (hrelease _ _ _ _ _ rfl rfl HEq.rfl).elim
    | _ => rfl
  · exact absurd h (by simp)
  · next htask =>
    split at h
    · exact absurd h (by simp)
    · next hfree =>
      obtain ⟨rfl, rfl⟩ := Prod.mk.inj (Option.some.inj h)
      exact .takes htask hfree
  · next htask =>
    obtain ⟨rfl, rfl⟩ := Prod.mk.inj (Option.some.inj h)
    exact .ends htask _

section Resumed

variable {key : Json → Id} {loop : Nat} {s s' : LoopState ι Id} {i j : ι} {event : LoopEvent ι}

theorem Resumed.task_eq (h : Resumed key loop s i event s') : event.task = i := by
  cases h <;> rfl

theorem Resumed.tasks_of_ne (h : Resumed key loop s i event s') (hj : j ≠ i) :
    s'.tasks j = s.tasks j := by
  cases h <;> exact LoopState.setTask_tasks_of_ne s hj _

/-- A task that calls the store had come to this call, and waits for the answer then. -/
theorem Resumed.starts_inv {request : StoreRequest}
    (h : Resumed key loop s i (.starts j request) s') :
    ∃ held next, s.tasks i = .ready held (.ask request next) ∧
      s'.tasks i = .calling held request next := by
  cases h with
  | @starts held _ next htask hcall =>
    exact ⟨held, next, htask, LoopState.setTask_tasks_self ..⟩

/-- A task that gets a lock has waited for it. -/
theorem Resumed.takes_inv {documentId : Json} (h : Resumed key loop s i (.takes j documentId) s') :
    ∃ held lock next, s.tasks i = .waiting held documentId lock next := by
  cases h with
  | takes htask hfree => exact ⟨_, _, _, htask⟩

/-- A task that waits for an answer of the store goes on when it gets the answer. -/
theorem Resumed.ends_of_calling {held : HeldLocks} {request : StoreRequest}
    {next : request.Answer → Program documentStore Unit}
    (h : Resumed key loop s i event s') (htask : s.tasks i = .calling held request next) :
    ∃ answer, event = .ends i answer := by
  cases h with
  | ends htask' answer => exact ⟨_, rfl⟩
  | asks htask' => exact absurd (htask.symm.trans htask') (by simp)
  | takes htask' => exact absurd (htask.symm.trans htask') (by simp)
  | frees htask' => exact absurd (htask.symm.trans htask') (by simp)
  | starts htask' => exact absurd (htask.symm.trans htask') (by simp)

end Resumed

/-! ## Runs -/

/-- A run of a loop: the state that it starts in, and which task is resumed at each time, with how
the store answers then. -/
structure LoopRun (ι Id : Type) where
  /-- By what documents are told apart. -/
  key : Json → Id
  /-- The loop that the tasks run on. -/
  loop : Nat
  start : LoopState ι Id
  schedule : Nat → ι × StoreAnswers

namespace LoopRun

/-- What happens to a state at a time, if anything does. -/
def stepAt (run : LoopRun ι Id) (s : LoopState ι Id) (time : Nat) :
    Option (LoopEvent ι × LoopState ι Id) :=
  s.resume run.key run.loop (run.schedule time).1 (run.schedule time).2

/-- The state of the loop at each time. -/
def stateAt (run : LoopRun ι Id) : Nat → LoopState ι Id
  | 0 => run.start
  | time + 1 =>
    match run.stepAt (run.stateAt time) time with
    | some (_, s) => s
    | none => run.stateAt time

/-- What can be seen of the loop at each time. -/
def eventAt (run : LoopRun ι Id) (time : Nat) : Option (LoopEvent ι) :=
  (run.stepAt (run.stateAt time) time).map Prod.fst

/-- At each time nothing happens, or one task is resumed. -/
theorem stateAt_succ (run : LoopRun ι Id) (time : Nat) :
    (run.eventAt time = none ∧ run.stateAt (time + 1) = run.stateAt time) ∨
      ∃ event, run.eventAt time = some event ∧
        Resumed run.key run.loop (run.stateAt time) event.task event (run.stateAt (time + 1)) := by
  unfold eventAt
  rw [stateAt]
  cases hstep : run.stepAt (run.stateAt time) time with
  | none => exact .inl ⟨rfl, rfl⟩
  | some result =>
    obtain ⟨event, s'⟩ := result
    have hresumed := resume_inv hstep
    exact .inr ⟨event, rfl, hresumed.task_eq ▸ hresumed⟩

/-- What is seen at a time says which task was resumed. -/
theorem resumed_of_eventAt {run : LoopRun ι Id} {time : Nat} {event : LoopEvent ι}
    (h : run.eventAt time = some event) :
    Resumed run.key run.loop (run.stateAt time) event.task event (run.stateAt (time + 1)) := by
  rcases run.stateAt_succ time with ⟨hnone, -⟩ | ⟨event', hevent, hresumed⟩
  · exact absurd (h.symm.trans hnone) (by simp)
  · obtain rfl := Option.some.inj (h.symm.trans hevent)
    exact hresumed

/-- What resuming a task preserves holds at every time. -/
theorem stateAt_induction (run : LoopRun ι Id) {P : LoopState ι Id → Prop} (hstart : P run.start)
    (hresumed : ∀ s i event s', P s → Resumed run.key run.loop s i event s' → P s')
    (time : Nat) : P (run.stateAt time) := by
  induction time with
  | zero => exact hstart
  | succ time ih =>
    rcases run.stateAt_succ time with ⟨-, hsame⟩ | ⟨event, -, hstep⟩
    · rwa [hsame]
    · exact hresumed _ _ _ _ ih hstep

end LoopRun

end Loop

/-! ## Locks -/

namespace LockRegistry

variable {Id : Type} [DecidableEq Id] {r : LockRegistry Id} {loop : Nat} {documentId other : Id}

theorem lookup_renew_self :
    (r.renew loop documentId).entries.lookup documentId = some ⟨loop, r.made⟩ := by
  simp [renew]

theorem lookup_renew_of_ne (h : other ≠ documentId) :
    (r.renew loop documentId).entries.lookup other = r.entries.lookup other := by
  have hother : (other == documentId) = false := beq_eq_false_iff_ne.2 h
  rw [renew, List.lookup_cons, hother]
  show List.lookup other (r.entries.filter (·.1 ≠ documentId)) = r.entries.lookup other
  induction r.entries with
  | nil => rfl
  | cons entry rest ih =>
    obtain ⟨known, lock⟩ := entry
    by_cases hknown : known = documentId
    · subst hknown
      rw [List.filter_cons_of_neg (by simp), ih, List.lookup_cons, hother]
    · rw [List.filter_cons_of_pos (by simpa using hknown), List.lookup_cons, List.lookup_cons, ih]

/-- A document has a lock that was made on the loop that asks for it, or gets a new one. -/
theorem lockFor_cases (r : LockRegistry Id) (loop : Nat) (documentId : Id) :
    (∃ lock, r.entries.lookup documentId = some ⟨loop, lock⟩ ∧
      r.lockFor loop documentId = (lock, r)) ∨
    ((∀ lock, r.entries.lookup documentId ≠ some ⟨loop, lock⟩) ∧
      r.lockFor loop documentId = (r.made, r.renew loop documentId)) := by
  rw [lockFor]
  cases hentry : r.entries.lookup documentId with
  | none => exact .inr ⟨by simp, rfl⟩
  | some entry =>
    obtain ⟨made, lock⟩ := entry
    by_cases hloop : made = loop
    · exact .inl ⟨lock, by rw [hloop], if_pos hloop⟩
    · exact .inr ⟨fun _ heq => hloop (DocumentLock.mk.inj (Option.some.inj heq)).1, if_neg hloop⟩

/-- The lock for work on a document is the one that the registry has for it afterwards. -/
theorem lookup_lockFor :
    (r.lockFor loop documentId).2.entries.lookup documentId =
      some ⟨loop, (r.lockFor loop documentId).1⟩ := by
  rcases r.lockFor_cases loop documentId with ⟨lock, hkept, heq⟩ | ⟨-, heq⟩
  · rw [heq, hkept]
  · rw [heq]
    exact lookup_renew_self

/-- A lock that was made on a loop is kept when a lock is asked for on this loop. -/
theorem lookup_lockFor_of_eq {lock : Nat}
    (h : r.entries.lookup other = some ⟨loop, lock⟩) :
    (r.lockFor loop documentId).2.entries.lookup other = some ⟨loop, lock⟩ := by
  rcases r.lockFor_cases loop documentId with ⟨_, -, heq⟩ | ⟨hnone, heq⟩
  · rw [heq, h]
  · have hother : other ≠ documentId := by
      rintro rfl
      exact hnone lock h
    rw [heq, lookup_renew_of_ne hother, h]

end LockRegistry

section LocksHeld

variable {ι Id : Type} [DecidableEq Id]

/-- The locks of a loop are in order: a task that holds or waits for the lock of a document means
the one that the registry has for it; locks that are held are taken; and no lock is held twice. -/
structure LocksHeld (key : Json → Id) (loop : Nat) (s : LoopState ι Id) : Prop where
  registered : ∀ i documentId lock, (documentId, lock) ∈ (s.tasks i).claimed →
    s.registry.entries.lookup (key documentId) = some ⟨loop, lock⟩
  locked : ∀ i documentId lock, (documentId, lock) ∈ (s.tasks i).held → lock ∈ s.locked
  nodup : ∀ i, ((s.tasks i).held.map Prod.snd).Nodup
  exclusive : ∀ i j lock, lock ∈ (s.tasks i).held.map Prod.snd →
    lock ∈ (s.tasks j).held.map Prod.snd → i = j

variable {key : Json → Id} {loop : Nat} {s s' : LoopState ι Id} {i : ι} {event : LoopEvent ι}

/-- Nothing is out of order while no task holds a lock. -/
theorem locksHeld_of_unheld (h : ∀ i, (s.tasks i).claimed = []) : LocksHeld key loop s := by
  have hheld : ∀ i, (s.tasks i).held = [] := fun i =>
    List.eq_nil_iff_forall_not_mem.2 fun entry hentry =>
      absurd (Task.mem_claimed_of_mem_held hentry) (by simp [h i])
  constructor <;> simp [h, hheld]

variable [DecidableEq ι]

/-- A task that has become another one, without taking or giving back a lock. -/
theorem LocksHeld.setTask (h : LocksHeld key loop s) {task : Task}
    {registry : LockRegistry Id} (hheld : task.held = (s.tasks i).held)
    (hkept : ∀ documentId lock, s.registry.entries.lookup documentId = some ⟨loop, lock⟩ →
      registry.entries.lookup documentId = some ⟨loop, lock⟩)
    (hclaimed : ∀ documentId lock, (documentId, lock) ∈ task.claimed →
      registry.entries.lookup (key documentId) = some ⟨loop, lock⟩) :
    LocksHeld key loop { s.setTask i task with registry } := by
  have hsame : ∀ j, ((s.setTask i task).tasks j).held = (s.tasks j).held :=
    LoopState.setTask_forall _ _ _ (fun j task => task.held = (s.tasks j).held) hheld fun _ _ => rfl
  refine ⟨?_, ?_, ?_, ?_⟩
  · exact LoopState.setTask_forall _ _ _ (fun _ task => ∀ documentId lock,
      (documentId, lock) ∈ task.claimed →
        registry.entries.lookup (key documentId) = some ⟨loop, lock⟩)
      hclaimed fun j _ documentId lock hmem => hkept _ _ (h.registered j documentId lock hmem)
  · intro j documentId lock hmem
    exact h.locked j documentId lock (hsame j ▸ hmem)
  · intro j
    rw [hsame j]
    exact h.nodup j
  · intro j k lock hj hk
    rw [hsame j] at hj
    rw [hsame k] at hk
    exact h.exclusive j k lock hj hk

/-- A task gets a lock that is not taken. -/
theorem LocksHeld.take (h : LocksHeld key loop s) {held : HeldLocks} {documentId : Json}
    {lock : Nat} {next : Unit → Program documentStore Unit}
    (htask : s.tasks i = .waiting held documentId lock next) (hfree : lock ∉ s.locked) :
    LocksHeld key loop { s.setTask i (.ready ((documentId, lock) :: held) (next ())) with
      locked := lock :: s.locked } := by
  have hheld : (s.tasks i).held = held := by rw [htask]; rfl
  have hlocked : ∀ j l, l ∈ (s.tasks j).held.map Prod.snd → l ∈ s.locked := by
    intro j l hl
    obtain ⟨⟨documentId, l⟩, hmem, rfl⟩ := List.mem_map.1 hl
    exact h.locked j documentId l hmem
  have howner := LoopState.setTask_forall s i (.ready ((documentId, lock) :: held) (next ()))
    (fun j task => ∀ l ∈ task.held.map Prod.snd,
      l = lock ∧ j = i ∨ l ≠ lock ∧ l ∈ (s.tasks j).held.map Prod.snd)
    (by
      intro l hl
      rcases List.mem_cons.1 hl with rfl | hl
      · exact .inl ⟨rfl, rfl⟩
      · rw [← hheld] at hl
        exact .inr ⟨fun heq => hfree (heq ▸ hlocked i l hl), hl⟩)
    fun j _ l hl => .inr ⟨fun heq => hfree (heq ▸ hlocked j l hl), hl⟩
  refine ⟨?_, ?_, ?_, ?_⟩
  · exact LoopState.setTask_forall _ _ _ (fun _ task => ∀ documentId lock,
      (documentId, lock) ∈ task.claimed →
        s.registry.entries.lookup (key documentId) = some ⟨loop, lock⟩)
      (fun documentId lock hmem => h.registered i documentId lock (htask ▸ hmem))
      fun j _ => h.registered j
  · intro j documentId' l hmem
    rcases howner j l (List.mem_map_of_mem hmem) with ⟨rfl, -⟩ | ⟨-, hl⟩
    · exact List.mem_cons_self
    · exact List.mem_cons_of_mem _ (hlocked j l hl)
  · refine LoopState.setTask_forall _ _ _ (fun _ task => (task.held.map Prod.snd).Nodup)
      (List.nodup_cons.2 ⟨fun hl => hfree (hlocked i lock (hheld ▸ hl)), hheld ▸ h.nodup i⟩)
      fun j _ => h.nodup j
  · intro j k l hj hk
    rcases howner j l hj with ⟨rfl, rfl⟩ | ⟨hne, hj⟩
    · rcases howner k l hk with ⟨-, rfl⟩ | ⟨hne, -⟩
      · rfl
      · exact absurd rfl hne
    · rcases howner k l hk with ⟨heq, -⟩ | ⟨-, hk⟩
      · exact absurd heq hne
      · exact h.exclusive j k l hj hk

/-- A task gives back the lock that it took last. -/
theorem LocksHeld.free (h : LocksHeld key loop s) {held : HeldLocks} {lockedId : Json} {lock : Nat}
    {program next : Program documentStore Unit}
    (htask : s.tasks i = .ready ((lockedId, lock) :: held) program) :
    LocksHeld key loop { s.setTask i (.ready held next) with
      locked := s.locked.filter (· ≠ lock) } := by
  have hheld : (s.tasks i).held = (lockedId, lock) :: held := by rw [htask]; rfl
  have hnodup := h.nodup i
  rw [hheld, List.map_cons, List.nodup_cons] at hnodup
  have hlock : lock ∈ (s.tasks i).held.map Prod.snd := by
    rw [hheld]
    exact List.mem_cons_self
  have hkept := LoopState.setTask_forall s i (.ready held next)
    (fun j task => ∀ entry ∈ task.held, entry.2 ≠ lock ∧ entry ∈ (s.tasks j).held)
    (by
      intro entry hentry
      have hmem : entry.2 ∈ held.map Prod.snd := List.mem_map_of_mem hentry
      refine ⟨fun heq => hnodup.1 (heq ▸ hmem), ?_⟩
      rw [hheld]
      exact List.mem_cons_of_mem _ hentry)
    fun j hj entry hentry => ⟨fun heq => hj (h.exclusive j i lock
      (heq ▸ List.mem_map_of_mem hentry) hlock), hentry⟩
  refine ⟨?_, ?_, ?_, ?_⟩
  · exact LoopState.setTask_forall _ _ _ (fun _ task => ∀ documentId lock,
      (documentId, lock) ∈ task.claimed →
        s.registry.entries.lookup (key documentId) = some ⟨loop, lock⟩)
      (fun documentId lock hmem => h.registered i documentId lock
        (htask ▸ List.mem_cons_of_mem _ hmem))
      fun j _ => h.registered j
  · intro j documentId' l hmem
    obtain ⟨hne, hmem⟩ := hkept j _ hmem
    exact List.mem_filter.2 ⟨h.locked j documentId' l hmem, by simpa using hne⟩
  · exact LoopState.setTask_forall _ _ _ (fun _ task => (task.held.map Prod.snd).Nodup) hnodup.2
      fun j _ => h.nodup j
  · intro j k l hj hk
    obtain ⟨entry, hentry, rfl⟩ := List.mem_map.1 hj
    obtain ⟨entry', hentry', heq⟩ := List.mem_map.1 hk
    exact h.exclusive j k entry.2 (List.mem_map_of_mem (hkept j _ hentry).2)
      (heq ▸ List.mem_map_of_mem (hkept k _ hentry').2)

/-- Resuming a task keeps the locks in order. -/
theorem LocksHeld.resumed (h : LocksHeld key loop s) (hstep : Resumed key loop s i event s') :
    LocksHeld key loop s' := by
  cases hstep with
  | @asks held documentId next htask =>
    refine h.setTask (by rw [htask]; rfl) (fun _ _ => LockRegistry.lookup_lockFor_of_eq) ?_
    intro documentId' lock hmem
    rcases List.mem_cons.1 hmem with heq | hmem
    · obtain ⟨rfl, rfl⟩ := Prod.mk.inj heq
      exact LockRegistry.lookup_lockFor
    · exact LockRegistry.lookup_lockFor_of_eq (h.registered i documentId' lock (htask ▸ hmem))
  | starts htask hcall =>
    exact h.setTask (by rw [htask]; rfl) (fun _ _ => id)
      fun documentId lock hmem => h.registered i documentId lock (htask ▸ hmem)
  | ends htask answer =>
    exact h.setTask (by rw [htask]; rfl) (fun _ _ => id)
      fun documentId lock hmem => h.registered i documentId lock (htask ▸ hmem)
  | takes htask hfree => exact h.take htask hfree
  | frees htask => exact h.free htask

end LocksHeld

end DocTemplate
