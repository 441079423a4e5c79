import DocTemplate.Proofs.Loop.Serialization

/-!
# Locks on several loops

All event loops of a process share one registry of locks, and it has one entry for each document. A
call for the lock of a document on another loop than the last one replaces this entry. A lock whose
entry was replaced is given to no later call (`Retired.not_mem_locks`). So two calls get one lock if
and only if they are made on one loop for one document, and no call for this document on another
loop stands between them (`Sound.locks_eq_iff`).

The locks that tasks hold or wait for are those that the calls on the way to a state got
(`fromCalls_of_reached`). So two tasks of one loop can mean different locks of a document, but only
if another loop asked for the document between two calls of theirs.
-/

namespace DocTemplate

namespace LockRegistry

variable {Id : Type}

/-! ## Sequences of calls -/

/-- Only calls on the loop of this call are made for its document between two positions. -/
def OneLoopBetween (calls : List (Nat × Id)) (m n : Nat) (call : Nat × Id) : Prop :=
  ∀ k loop, m < k ∧ k < n ∨ n < k ∧ k < m → calls[k]? = some (loop, call.2) → loop = call.1

theorem oneLoopBetween_comm {calls : List (Nat × Id)} {m n : Nat} {call : Nat × Id} :
    OneLoopBetween calls m n call ↔ OneLoopBetween calls n m call :=
  forall₂_congr fun _ _ => imp_congr_left or_comm

theorem oneLoopBetween_zero_succ {first call : Nat × Id} {rest : List (Nat × Id)} {n : Nat} :
    OneLoopBetween (first :: rest) 0 (n + 1) call ↔
      ∀ k < n, ∀ loop, rest[k]? = some (loop, call.2) → loop = call.1 := by
  constructor
  · intro h k hk loop hat
    exact h (k + 1) loop (.inl ⟨Nat.succ_pos k, Nat.succ_lt_succ hk⟩) hat
  · intro h k loop hbetween hat
    cases k with
    | zero => exact absurd hbetween (by omega)
    | succ k => exact h k (by omega) loop hat

theorem oneLoopBetween_succ_succ {first call : Nat × Id} {rest : List (Nat × Id)} {m n : Nat} :
    OneLoopBetween (first :: rest) (m + 1) (n + 1) call ↔ OneLoopBetween rest m n call := by
  constructor
  · intro h k loop hbetween hat
    exact h (k + 1) loop (by omega) hat
  · intro h k loop hbetween hat
    cases k with
    | zero => exact absurd hbetween (by omega)
    | succ k => exact h k loop (by omega) hat

/-- Another loop asks for a document between two calls of a loop for it. -/
def AskedInBetween (calls : List (Nat × Id)) (loop : Nat) (documentId : Id) : Prop :=
  ∃ (m k n other : Nat), m < k ∧ k < n ∧ other ≠ loop ∧ calls[m]? = some (loop, documentId) ∧
    calls[k]? = some (other, documentId) ∧ calls[n]? = some (loop, documentId)

theorem oneLoopBetween_or_askedInBetween {calls : List (Nat × Id)} {m n : Nat} {call : Nat × Id}
    (hm : calls[m]? = some call) (hn : calls[n]? = some call) :
    OneLoopBetween calls m n call ∨ AskedInBetween calls call.1 call.2 := by
  rw [or_iff_not_imp_left]
  intro hother
  simp only [OneLoopBetween, not_forall] at hother
  obtain ⟨k, other, hbetween, hk, hne⟩ := hother
  rcases hbetween with ⟨hmk, hkn⟩ | ⟨hnk, hkm⟩
  · exact ⟨m, k, n, other, hmk, hkn, hne, hm, hk, hn⟩
  · exact ⟨n, k, m, other, hnk, hkm, hne, hn, hk, hm⟩

variable [DecidableEq Id]

/-- The locks that calls get one after another. A call is made on a loop for a document. -/
def locks (r : LockRegistry Id) : List (Nat × Id) → List Nat
  | [] => []
  | (loop, documentId) :: calls =>
    (r.lockFor loop documentId).1 :: (r.lockFor loop documentId).2.locks calls

/-- The registry after calls. -/
def afterCalls (r : LockRegistry Id) (calls : List (Nat × Id)) : LockRegistry Id :=
  calls.foldl (fun r call => (r.lockFor call.1 call.2).2) r

@[simp] theorem length_locks (r : LockRegistry Id) (calls : List (Nat × Id)) :
    (r.locks calls).length = calls.length := by
  induction calls generalizing r with
  | nil => rfl
  | cons call rest ih => simp [locks, ih]

theorem locks_append (r : LockRegistry Id) (calls later : List (Nat × Id)) :
    r.locks (calls ++ later) = r.locks calls ++ (r.afterCalls calls).locks later := by
  induction calls generalizing r with
  | nil => rfl
  | cons call rest ih =>
    rw [List.cons_append, locks, ih, locks]
    rfl

theorem afterCalls_append (r : LockRegistry Id) (calls later : List (Nat × Id)) :
    r.afterCalls (calls ++ later) = (r.afterCalls calls).afterCalls later :=
  List.foldl_append ..

variable {r : LockRegistry Id} {loop lock : Nat} {documentId : Id}

/-! ## What a call preserves -/

/-- Registered locks were made, and no two documents have one of them together. -/
structure Sound (r : LockRegistry Id) : Prop where
  made : ∀ {documentId entry}, r.entries.lookup documentId = some entry → entry.lock < r.made
  distinct : ∀ {documentId other entry entry'}, r.entries.lookup documentId = some entry →
    r.entries.lookup other = some entry' → entry.lock = entry'.lock → documentId = other

/-- The lock was made, and no document has it. -/
structure Retired (r : LockRegistry Id) (lock : Nat) : Prop where
  made : lock < r.made
  unregistered : ∀ {documentId entry}, r.entries.lookup documentId = some entry →
    entry.lock ≠ lock

theorem sound_empty : Sound ({} : LockRegistry Id) where
  made h := absurd h (by simp)
  distinct h := absurd h (by simp)

theorem lookup_renew_inv {other : Id} {entry : DocumentLock}
    (h : (r.renew loop documentId).entries.lookup other = some entry) :
    (other = documentId ∧ entry = ⟨loop, r.made⟩) ∨
      (other ≠ documentId ∧ r.entries.lookup other = some entry) := by
  by_cases hother : other = documentId
  · subst hother
    rw [lookup_renew_self] at h
    exact .inl ⟨rfl, (Option.some.inj h).symm⟩
  · rw [lookup_renew_of_ne hother] at h
    exact .inr ⟨hother, h⟩

theorem lookup_lockFor_of_ne {other : Id} (h : other ≠ documentId) :
    (r.lockFor loop documentId).2.entries.lookup other = r.entries.lookup other := by
  rcases r.lockFor_cases loop documentId with ⟨_, -, heq⟩ | ⟨-, heq⟩ <;> rw [heq]
  exact lookup_renew_of_ne h

theorem Sound.renew (h : r.Sound) (loop : Nat) (documentId : Id) :
    (r.renew loop documentId).Sound where
  made := by
    intro other entry hentry
    show entry.lock < r.made + 1
    rcases lookup_renew_inv hentry with ⟨-, rfl⟩ | ⟨-, hentry⟩
    · exact Nat.lt_succ_self _
    · exact Nat.lt_succ_of_lt (h.made hentry)
  distinct := by
    intro first second entry entry' hfirst hsecond heq
    rcases lookup_renew_inv hfirst with ⟨hid, rfl⟩ | ⟨-, hfirst'⟩ <;>
      rcases lookup_renew_inv hsecond with ⟨hid', rfl⟩ | ⟨-, hsecond'⟩
    · exact hid.trans hid'.symm
    · exact absurd heq.symm (h.made hsecond').ne
    · exact absurd heq (h.made hfirst').ne
    · exact h.distinct hfirst' hsecond' heq

theorem Sound.lockFor (h : r.Sound) (loop : Nat) (documentId : Id) :
    (r.lockFor loop documentId).2.Sound := by
  rcases r.lockFor_cases loop documentId with ⟨_, -, heq⟩ | ⟨-, heq⟩ <;> rw [heq]
  · exact h
  · exact h.renew loop documentId

theorem Retired.lockFor (h : r.Retired lock) (loop : Nat) (documentId : Id) :
    (r.lockFor loop documentId).1 ≠ lock ∧ (r.lockFor loop documentId).2.Retired lock := by
  rcases r.lockFor_cases loop documentId with ⟨kept, hkept, heq⟩ | ⟨-, heq⟩ <;> rw [heq]
  · exact ⟨h.unregistered hkept, h⟩
  · refine ⟨h.made.ne', Nat.lt_succ_of_lt h.made, fun hentry => ?_⟩
    rcases lookup_renew_inv hentry with ⟨-, rfl⟩ | ⟨-, hentry⟩
    · exact h.made.ne'
    · exact h.unregistered hentry

/-- A lock that was retired is given to no call. -/
theorem Retired.not_mem_locks (h : r.Retired lock) (calls : List (Nat × Id)) :
    lock ∉ r.locks calls := by
  induction calls generalizing r with
  | nil => simp [locks]
  | cons call rest ih =>
    obtain ⟨hne, hretired⟩ := h.lockFor call.1 call.2
    rw [locks, List.mem_cons, not_or]
    exact ⟨hne.symm, ih hretired⟩

/-- A call for a document on another loop retires the lock that the document had. -/
theorem Sound.retired_of_ne (h : r.Sound)
    (hentry : r.entries.lookup documentId = some ⟨loop, lock⟩) {other : Nat}
    (hother : other ≠ loop) : (r.lockFor other documentId).2.Retired lock := by
  rcases r.lockFor_cases other documentId with ⟨_, hkept, -⟩ | ⟨-, heq⟩
  · rw [hentry] at hkept
    exact absurd (DocumentLock.mk.inj (Option.some.inj hkept)).1.symm hother
  · have hmade : lock < r.made := h.made hentry
    rw [heq]
    refine ⟨Nat.lt_succ_of_lt hmade, fun hlater => ?_⟩
    rcases lookup_renew_inv hlater with ⟨-, rfl⟩ | ⟨hne, hlater⟩
    · exact hmade.ne'
    · exact fun heq => hne (h.distinct hlater hentry heq)

/-! ## Calls that get one lock -/

/-- A call gets the lock of a document if and only if it is made for this document, on the loop that
the lock was made on. -/
theorem Sound.lockFor_eq_iff (h : r.Sound)
    (hentry : r.entries.lookup documentId = some ⟨loop, lock⟩) (call : Nat × Id) :
    (r.lockFor call.1 call.2).1 = lock ↔ call = (loop, documentId) := by
  rcases r.lockFor_cases call.1 call.2 with ⟨kept, hkept, heq⟩ | ⟨hnone, heq⟩ <;> rw [heq]
  · constructor
    · intro hlock
      have hid := h.distinct hkept hentry hlock
      rw [hid, hentry] at hkept
      exact Prod.ext (DocumentLock.mk.inj (Option.some.inj hkept)).1.symm hid
    · rintro rfl
      exact (DocumentLock.mk.inj (Option.some.inj (hkept.symm.trans hentry))).2
  · constructor
    · intro hlock
      exact absurd hlock.symm (h.made hentry).ne
    · rintro rfl
      exact absurd hentry (hnone lock)

/-- The lock that a document has goes to later calls for it on the same loop, until there is one on
another loop. -/
theorem Sound.getElem?_locks_iff (h : r.Sound)
    (hentry : r.entries.lookup documentId = some ⟨loop, lock⟩) {calls : List (Nat × Id)} {n : Nat}
    {call : Nat × Id} (hcall : calls[n]? = some call) :
    (r.locks calls)[n]? = some lock ↔ call = (loop, documentId) ∧
      ∀ k < n, ∀ other, calls[k]? = some (other, documentId) → other = loop := by
  induction calls generalizing r n with
  | nil => exact absurd hcall (by simp)
  | cons first rest ih =>
    cases n with
    | zero =>
      obtain rfl := Option.some.inj hcall
      simpa [locks] using h.lockFor_eq_iff hentry first
    | succ n =>
      -- the first call either retires the lock for good or leaves the entry of the document alone
      by_cases hfirst : first.2 = documentId ∧ first.1 ≠ loop
      · obtain ⟨rfl, hother⟩ := hfirst
        constructor
        · intro hlock
          have hmem : lock ∈ (r.lockFor first.1 first.2).2.locks rest := List.mem_of_getElem? hlock
          exact absurd hmem ((h.retired_of_ne hentry hother).not_mem_locks rest)
        · rintro ⟨-, hloop⟩
          exact absurd (hloop 0 (Nat.succ_pos n) first.1 rfl) hother
      · have hkept : (r.lockFor first.1 first.2).2.entries.lookup documentId =
            some ⟨loop, lock⟩ := by
          by_cases hid : first.2 = documentId
          · have hloop : first.1 = loop := by_contra fun hne => hfirst ⟨hid, hne⟩
            rw [hloop]
            exact lookup_lockFor_of_eq hentry
          · rw [lookup_lockFor_of_ne (Ne.symm hid), hentry]
        have hhead : ∀ other, (first :: rest)[0]? = some (other, documentId) → other = loop := by
          intro other heq
          obtain rfl := Option.some.inj heq
          exact by_contra fun hne => hfirst ⟨rfl, hne⟩
        rw [Nat.forall_lt_succ_left, and_iff_right hhead]
        exact ih (h.lockFor first.1 first.2) hkept hcall

theorem Sound.locks_eq_iff_of_lt (h : r.Sound) {calls : List (Nat × Id)} {m n : Nat}
    {call later : Nat × Id} (hm : calls[m]? = some call) (hn : calls[n]? = some later)
    (hlt : m < n) :
    (r.locks calls)[m]? = (r.locks calls)[n]? ↔ call = later ∧ OneLoopBetween calls m n call := by
  induction calls generalizing r m n with
  | nil => exact absurd hm (by simp)
  | cons first rest ih =>
    obtain ⟨n, rfl⟩ := Nat.exists_eq_succ_of_ne_zero (Nat.ne_zero_of_lt hlt)
    have hsound := h.lockFor first.1 first.2
    cases m with
    | zero =>
      obtain rfl := Option.some.inj hm
      have hlater : rest[n]? = some later := hn
      rw [oneLoopBetween_zero_succ]
      exact eq_comm.trans ((hsound.getElem?_locks_iff lookup_lockFor hlater).trans
        (and_congr_left' eq_comm))
    | succ m =>
      rw [oneLoopBetween_succ_succ]
      exact ih hsound hm hn (Nat.lt_of_succ_lt_succ hlt)

/-- Two calls get one lock if and only if they are made on one loop for one document, and only this
loop asks for the document in between. -/
theorem Sound.locks_eq_iff (h : r.Sound) {calls : List (Nat × Id)} {m n : Nat}
    {call other : Nat × Id} (hm : calls[m]? = some call) (hn : calls[n]? = some other) :
    (r.locks calls)[m]? = (r.locks calls)[n]? ↔ call = other ∧ OneLoopBetween calls m n call := by
  rcases lt_trichotomy m n with hlt | rfl | hgt
  · exact h.locks_eq_iff_of_lt hm hn hlt
  · have hnone : OneLoopBetween calls m m call := fun k loop hbetween => by omega
    exact iff_of_true rfl ⟨Option.some.inj (hm.symm.trans hn), hnone⟩
  · rw [eq_comm, h.locks_eq_iff_of_lt hn hm hgt, oneLoopBetween_comm]
    constructor
    · rintro ⟨rfl, hbetween⟩
      exact ⟨rfl, hbetween⟩
    · rintro ⟨rfl, hbetween⟩
      exact ⟨rfl, hbetween⟩

end LockRegistry

/-! ## Tasks of several loops -/

section Loops

variable {ι Id : Type}

/-- The calls for locks that an event makes, when each task runs on a loop of its own choice. -/
def LoopEvent.lockCalls (key : Json → Id) (loopOf : ι → Nat) : LoopEvent ι → List (Nat × Id)
  | asks task documentId => [(loopOf task, key documentId)]
  | _ => []

variable [DecidableEq ι] [DecidableEq Id] {key : Json → Id} {loopOf : ι → Nat}
  {calls : List (Nat × Id)} {s s' : LoopState ι Id} {i j : ι} {event : LoopEvent ι}

/-- A state that tasks of several loops come to, which share one registry, and the calls for locks
that are made on the way. -/
inductive Reached (key : Json → Id) (loopOf : ι → Nat) :
    List (Nat × Id) → LoopState ι Id → Prop
  | start {s : LoopState ι Id} : s.registry = {} → (∀ i, (s.tasks i).claimed = []) →
      Reached key loopOf [] s
  | resumed {calls : List (Nat × Id)} {s s' : LoopState ι Id} {i : ι} {answers : StoreAnswers}
      {event : LoopEvent ι} : Reached key loopOf calls s →
      s.resume key (loopOf i) i answers = some (event, s') →
      Reached key loopOf (calls ++ event.lockCalls key loopOf) s'

/-- The registry is the one after the calls, and each lock that a task holds or waits for was got by
one of them, on the loop of the task and for the document. -/
structure FromCalls (key : Json → Id) (loopOf : ι → Nat) (calls : List (Nat × Id))
    (s : LoopState ι Id) : Prop where
  registry : s.registry = LockRegistry.afterCalls {} calls
  claimed : ∀ i documentId lock, (documentId, lock) ∈ (s.tasks i).claimed →
    ∃ n : Nat, calls[n]? = some (loopOf i, key documentId) ∧
      (LockRegistry.locks {} calls)[n]? = some lock

theorem Resumed.registry_eq (hstep : Resumed key (loopOf i) s i event s') :
    s'.registry = s.registry.afterCalls (event.lockCalls key loopOf) := by
  cases hstep <;> rfl

/-- A task claims a lock only by asking for it. -/
theorem Resumed.claimed_cases {loop : Nat} (hstep : Resumed key loop s i event s')
    {documentId : Json} {lock : Nat} (hmem : (documentId, lock) ∈ (s'.tasks j).claimed) :
    (documentId, lock) ∈ (s.tasks j).claimed ∨
      j = i ∧ event = .asks i documentId ∧
        lock = (s.registry.lockFor loop (key documentId)).1 := by
  by_cases hj : j = i
  · subst hj
    cases hstep with
    | asks htask =>
      simp only [LoopState.setTask_tasks_self] at hmem
      rcases List.mem_cons.1 hmem with heq | hmem
      · obtain ⟨rfl, rfl⟩ := Prod.mk.inj heq
        exact .inr ⟨rfl, rfl, rfl⟩
      · exact .inl (htask ▸ hmem)
    | takes htask hfree =>
      simp only [LoopState.setTask_tasks_self] at hmem
      exact .inl (htask ▸ hmem)
    | frees htask =>
      simp only [LoopState.setTask_tasks_self] at hmem
      exact .inl (htask ▸ List.mem_cons_of_mem _ hmem)
    | starts htask hcall =>
      rw [LoopState.setTask_tasks_self] at hmem
      exact .inl (htask ▸ hmem)
    | ends htask answer =>
      rw [LoopState.setTask_tasks_self] at hmem
      exact .inl (htask ▸ hmem)
  · rw [hstep.tasks_of_ne hj] at hmem
    exact .inl hmem

theorem FromCalls.resumed (h : FromCalls key loopOf calls s)
    (hstep : Resumed key (loopOf i) s i event s') :
    FromCalls key loopOf (calls ++ event.lockCalls key loopOf) s' where
  registry := by rw [hstep.registry_eq, h.registry, LockRegistry.afterCalls_append]
  claimed := by
    intro j documentId lock hmem
    rw [LockRegistry.locks_append]
    rcases hstep.claimed_cases hmem with hmem | ⟨rfl, rfl, rfl⟩
    · obtain ⟨n, hcall, hlock⟩ := h.claimed j documentId lock hmem
      have hlt : n < calls.length := (List.getElem?_eq_some_iff.1 hcall).1
      have hltLocks : n < (LockRegistry.locks {} calls).length := by simpa using hlt
      exact ⟨n, (List.getElem?_append_left hlt).trans hcall,
        (List.getElem?_append_left hltLocks).trans hlock⟩
    · refine ⟨calls.length, List.getElem?_concat_length, ?_⟩
      rw [← LockRegistry.length_locks {} calls, ← h.registry]
      exact List.getElem?_concat_length

theorem fromCalls_of_reached (h : Reached key loopOf calls s) : FromCalls key loopOf calls s := by
  induction h with
  | start hregistry hclaimed => exact ⟨hregistry, by simp [hclaimed]⟩
  | resumed _ hstep ih => exact ih.resumed (resume_inv hstep)

/-- Resumes tasks one after another, and collects the calls for locks; nothing comes of it if one of
them cannot go on. -/
def resumeEach (key : Json → Id) (loopOf : ι → Nat) (answers : StoreAnswers) :
    List ι → List (Nat × Id) × LoopState ι Id → Option (List (Nat × Id) × LoopState ι Id)
  | [], state => some state
  | i :: order, (calls, s) =>
    (s.resume key (loopOf i) i answers).bind fun (event, s') =>
      resumeEach key loopOf answers order (calls ++ event.lockCalls key loopOf, s')

theorem Reached.resumeEach {answers : StoreAnswers} {order : List ι} {calls' : List (Nat × Id)}
    (h : Reached key loopOf calls s)
    (horder : resumeEach key loopOf answers order (calls, s) = some (calls', s')) :
    Reached key loopOf calls' s' := by
  induction order generalizing calls s with
  | nil =>
    obtain ⟨rfl, rfl⟩ := Prod.mk.inj (Option.some.inj horder)
    exact h
  | cons i order ih =>
    obtain ⟨⟨event, next⟩, hstep, hrest⟩ := Option.bind_eq_some_iff.1 horder
    exact ih (h.resumed hstep) hrest

/-- What is seen of the state that tasks come to, when they make calls that change documents. -/
theorem exists_reached_of_resumeEach {programs : ι → Template.Call} {answers : StoreAnswers}
    {order : List ι} {α : Type} {view : List (Nat × Id) × LoopState ι Id → α} {seen : α}
    (h : (resumeEach key loopOf answers order ([], startOfCalls {} programs)).map view =
      some seen) : ∃ calls s, Reached key loopOf calls s ∧ view (calls, s) = seen := by
  obtain ⟨⟨calls, s⟩, hstate, hseen⟩ := Option.map_eq_some_iff.1 h
  have hstart : Reached key loopOf [] (startOfCalls {} programs) := .start rfl fun _ => rfl
  exact ⟨calls, s, hstart.resumeEach hstate, hseen⟩

end Loops

/-- **A document has one lock on each loop until another loop asks for it.** Of any calls, two get
the same lock if and only if they are made on one loop for one document, and only this loop asks for
the document in between. So whatever tasks of several loops have done, two tasks of one loop that
hold or wait for a lock of one document mean the same lock, unless another loop asked for this
document between two calls of theirs. -/
theorem oneLock_onEachLoop {ι Id : Type} [DecidableEq ι] [DecidableEq Id] :
    (∀ (calls : List (Nat × Id)) (m n : Nat) (call other : Nat × Id),
      calls[m]? = some call → calls[n]? = some other →
      ((LockRegistry.locks {} calls)[m]? = (LockRegistry.locks {} calls)[n]? ↔
        call = other ∧ LockRegistry.OneLoopBetween calls m n call)) ∧
    ∀ (key : Json → Id) (loopOf : ι → Nat) (calls : List (Nat × Id)) (s : LoopState ι Id),
      Reached key loopOf calls s → ∀ i j documentId other lock lock',
        loopOf i = loopOf j → key documentId = key other →
        (documentId, lock) ∈ (s.tasks i).claimed → (other, lock') ∈ (s.tasks j).claimed →
        lock = lock' ∨ LockRegistry.AskedInBetween calls (loopOf i) (key documentId) := by
  refine ⟨fun calls m n call other => LockRegistry.sound_empty.locks_eq_iff, ?_⟩
  intro key loopOf calls s hreached i j documentId other lock lock' hloop hkey hi hj
  have hcalls := fromCalls_of_reached hreached
  obtain ⟨m, hm, hlock⟩ := hcalls.claimed i documentId lock hi
  obtain ⟨n, hn, hlock'⟩ := hcalls.claimed j other lock' hj
  rw [← hloop, ← hkey] at hn
  have hiff := LockRegistry.sound_empty.locks_eq_iff hm hn
  rw [hlock, hlock', Option.some.injEq] at hiff
  rw [hiff]
  exact (LockRegistry.oneLoopBetween_or_askedInBetween hm hn).imp_left fun h => ⟨rfl, h⟩

/-! ## Three tasks on two loops -/

namespace Template

/-- Three calls that delete something: the first and the last one in one document, and the middle
one in a document of this id. -/
def threeCalls (middle : String) (i : Fin 3) : Call :=
  .applyBatch (.str (if i = 1 then middle else "doc-1")) [.deleteRange (.int 1) (.int 2)] .null

/-- The middle call runs on a loop of its own. -/
def loopOfThree (i : Fin 3) : Nat :=
  if i = 1 then 1 else 0

/-- The last task waits for the lock that the first one holds, since the other loop works on another
document. -/
theorem oneLock_otherDocument :
    (LockRegistry.locks {} [(0, "doc-1"), (1, "doc-2"), (0, "doc-1")])[0]? =
      (LockRegistry.locks {} [(0, "doc-1"), (1, "doc-2"), (0, "doc-1")])[2]? ∧
    ∃ s lock lock', Reached idText loopOfThree [(0, "doc-1"), (1, "doc-2"), (0, "doc-1")] s ∧
      (s.tasks 0).held = [(.str "doc-1", lock)] ∧
      (.str "doc-1", lock') ∈ (s.tasks 2).claimed ∧ lock = lock' := by
  have hloop : ∀ loop : Nat, (loop, "doc-1") ∈ [(0, "doc-1"), (1, "doc-2"), (0, "doc-1")] →
      loop = 0 := by
    simp
  have hrun : (resumeEach idText loopOfThree (answerFrom pageBefore pageAfter 0) [0, 0, 1, 2]
      ([], startOfCalls {} (threeCalls "doc-2"))).map
        (fun state => (state.1, (state.2.tasks 0).held, (state.2.tasks 2).claimed)) =
      some ([(0, "doc-1"), (1, "doc-2"), (0, "doc-1")],
        [(.str "doc-1", 0)], [(.str "doc-1", 0)]) := by
    cbv
  obtain ⟨calls, s, hreached, hview⟩ := exists_reached_of_resumeEach hrun
  obtain ⟨rfl, hfirst, hlast⟩ : calls = _ ∧ (s.tasks 0).held = _ ∧ (s.tasks 2).claimed = _ := by
    simpa using hview
  obtain ⟨hcalls, htasks⟩ := @oneLock_onEachLoop (Fin 3) String _ _
  have hwaits : (.str "doc-1", 0) ∈ (s.tasks 2).claimed := by simp [hlast]
  have hholds : (.str "doc-1", 0) ∈ (s.tasks 0).claimed :=
    Task.mem_claimed_of_mem_held (by simp [hfirst])
  refine ⟨(hcalls _ 0 2 _ _ rfl rfl).2 ⟨rfl, fun k loop _ hk => ?_⟩, s, 0, 0, hreached, hfirst,
    hwaits, ?_⟩
  · exact hloop loop (List.mem_of_getElem? hk)
  · refine (htasks _ _ _ s hreached 0 2 _ _ 0 0 rfl rfl hholds hwaits).resolve_right ?_
    rintro ⟨m, k, n, other, -, -, hother, -, hk, -⟩
    exact hother (hloop other (List.mem_of_getElem? hk))

/-- The other loop asks for the document between two calls, and two tasks of one loop hold a lock of
it at the same time. -/
theorem not_oneLock_otherLoop :
    (LockRegistry.locks {} [(0, "doc-1"), (1, "doc-1"), (0, "doc-1")])[0]? ≠
      (LockRegistry.locks {} [(0, "doc-1"), (1, "doc-1"), (0, "doc-1")])[2]? ∧
    ∃ s, Reached idText loopOfThree [(0, "doc-1"), (1, "doc-1"), (0, "doc-1")] s ∧
      loopOfThree 0 = loopOfThree 2 ∧ (s.tasks 0).held = [(.str "doc-1", 0)] ∧
      (s.tasks 2).held = [(.str "doc-1", 2)] := by
  have hrun : (resumeEach idText loopOfThree (answerFrom pageBefore pageAfter 0) [0, 0, 1, 2, 2]
      ([], startOfCalls {} (threeCalls "doc-1"))).map
        (fun state => (state.1, (state.2.tasks 0).held, (state.2.tasks 2).held)) =
      some ([(0, "doc-1"), (1, "doc-1"), (0, "doc-1")],
        [(.str "doc-1", 0)], [(.str "doc-1", 2)]) := by
    cbv
  obtain ⟨calls, s, hreached, hview⟩ := exists_reached_of_resumeEach hrun
  obtain ⟨rfl, hfirst, hlast⟩ : calls = _ ∧ (s.tasks 0).held = _ ∧ (s.tasks 2).held = _ := by
    simpa using hview
  exact ⟨by decide, s, hreached, rfl, hfirst, hlast⟩

end Template

end DocTemplate
