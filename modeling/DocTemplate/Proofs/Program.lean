import DocTemplate.Program

/-!
# Runs of programs

A run of a program is the list of its requests, each with the answer that was given to it, and the
result that it ends with. The answers are arbitrary: what holds of every run holds whatever a
service does.

A run of a composition is a run of the first program and a run of the second one behind it
(`Program.runs_bind`). An action that fails ends there (`Action.runs_bind`).
-/

namespace DocTemplate

/-- A request with the answer that it was given. -/
abbrev Interface.Event (I : Interface) : Type :=
  (request : I.Request) × I.Answer request

variable {I : Interface} {α β : Type}

/-- The program can make these requests, be given these answers, and end with this result. -/
inductive Program.Runs : Program I α → List I.Event → α → Prop where
  | done (a : α) : Runs (.done a) [] a
  | ask {request : I.Request} {next : I.Answer request → Program I α} {events : List I.Event}
      {a : α} (answer : I.Answer request) (h : Runs (next answer) events a) :
      Runs (.ask request next) (⟨request, answer⟩ :: events) a

/-- The action can make these requests, be given these answers, and end with this result. -/
def Action.Runs (x : Action I α) (events : List I.Event) (result : Except Failure α) : Prop :=
  Program.Runs (ExceptT.run x) events result

/-! ## Programs -/

section Program

variable {events : List I.Event} {a : α} {b : β}

theorem Program.runs_done {a' : α} :
    (done a' : Program I α).Runs events a ↔ events = [] ∧ a' = a := by
  constructor
  · intro h
    cases h
    exact ⟨rfl, rfl⟩
  · rintro ⟨rfl, rfl⟩
    exact .done _

theorem Program.runs_ask {request : I.Request} {next : I.Answer request → Program I α} :
    (ask request next).Runs events a ↔
      ∃ answer rest, events = ⟨request, answer⟩ :: rest ∧ (next answer).Runs rest a := by
  constructor
  · intro h
    cases h with
    | ask answer h => exact ⟨answer, _, rfl, h⟩
  · rintro ⟨answer, rest, rfl, h⟩
    exact .ask answer h

theorem Program.runs_request {r : I.Request} {answer : I.Answer r} {events : List I.Event} :
    (request r).Runs events answer ↔ events = [⟨r, answer⟩] := by
  simp only [request, runs_ask, runs_done]
  constructor
  · rintro ⟨answer', _, rfl, rfl, rfl⟩
    rfl
  · rintro rfl
    exact ⟨answer, [], rfl, rfl, rfl⟩

theorem Program.runs_bind {p : Program I α} {f : α → Program I β} :
    (p >>= f).Runs events b ↔
      ∃ before a after, events = before ++ after ∧ p.Runs before a ∧ (f a).Runs after b := by
  induction p generalizing events with
  | done a =>
    simp only [done_bind, runs_done]
    constructor
    · intro h
      exact ⟨[], a, events, rfl, ⟨rfl, rfl⟩, h⟩
    · rintro ⟨_, _, after, rfl, ⟨rfl, rfl⟩, h⟩
      exact h
  | ask request next ih =>
    simp only [ask_bind, runs_ask, ih]
    constructor
    · rintro ⟨answer, _, rfl, before, a, after, rfl, hfirst, hsecond⟩
      exact ⟨_ :: before, a, after, rfl, ⟨answer, before, rfl, hfirst⟩, hsecond⟩
    · rintro ⟨_, a, after, rfl, ⟨answer, before, rfl, hfirst⟩, hsecond⟩
      exact ⟨answer, _, rfl, before, a, after, rfl, hfirst, hsecond⟩

/-- The run of a program whose requests are answered one after another by `answer`, which is told
how many requests there were before. -/
def Program.answered (answer : Nat → (r : I.Request) → I.Answer r) (n : Nat) :
    Program I α → List I.Event × α
  | done a => ([], a)
  | ask r next =>
    let (events, a) := answered answer (n + 1) (next (answer n r))
    (⟨r, answer n r⟩ :: events, a)

theorem Program.runs_answered (answer : Nat → (r : I.Request) → I.Answer r) (n : Nat)
    (p : Program I α) : p.Runs (p.answered answer n).1 (p.answered answer n).2 := by
  induction p generalizing n with
  | done a => exact .done a
  | ask r next ih => exact .ask (answer n r) (ih (answer n r) (n + 1))

end Program

/-! ## Actions -/

namespace Action

variable {events : List I.Event} {result : Except Failure α}

theorem runs_pure {a : α} : Runs (pure a : Action I α) events result ↔
    events = [] ∧ result = .ok a := by
  rw [eq_comm (a := result)]
  exact Program.runs_done

theorem runs_lift {x : Except Failure α} : Runs (liftM x : Action I α) events result ↔
    events = [] ∧ result = x := by
  rw [eq_comm (a := result)]
  exact Program.runs_done

theorem runs_request {r : I.Request} {h : I.Answer r = Except Failure α} :
    Runs (request r h) events result ↔
      ∃ answer : I.Answer r, events = [⟨r, answer⟩] ∧ result = h ▸ answer := by
  show (Program.ask r fun answer => .done (h ▸ answer)).Runs events result ↔ _
  simp only [Program.runs_ask, Program.runs_done]
  constructor
  · rintro ⟨answer, _, rfl, rfl, hresult⟩
    exact ⟨answer, rfl, hresult.symm⟩
  · rintro ⟨answer, rfl, hresult⟩
    exact ⟨answer, [], rfl, rfl, hresult.symm⟩

/-- A run of a composition is a run of the first action that fails, or one that does not fail with
a run of the second action behind it. -/
theorem runs_bind {x : Action I α} {f : α → Action I β} {result : Except Failure β} :
    Runs (x >>= f) events result ↔
      (∃ e, Runs x events (.error e) ∧ result = .error e) ∨
        ∃ before a after, events = before ++ after ∧ Runs x before (.ok a) ∧
          Runs (f a) after result := by
  rw [Runs, ExceptT.run_bind, Program.runs_bind]
  constructor
  · rintro ⟨before, first, after, rfl, hfirst, hsecond⟩
    cases first with
    | error e =>
      obtain ⟨rfl, rfl⟩ := Program.runs_done.1 hsecond
      rw [List.append_nil]
      exact .inl ⟨e, hfirst, rfl⟩
    | ok a => exact .inr ⟨before, a, after, rfl, hfirst, hsecond⟩
  · rintro (⟨e, hfirst, rfl⟩ | ⟨before, a, after, rfl, hfirst, hsecond⟩)
    · exact ⟨events, .error e, [], (List.append_nil events).symm, hfirst, .done _⟩
    · exact ⟨before, .ok a, after, rfl, hfirst, hsecond⟩

/-- A computation that asks for nothing fails at once, or the action goes on with its result. -/
theorem runs_lift_bind {x : Except Failure α} {f : α → Action I β} {result : Except Failure β} :
    Runs (liftM x >>= f) events result ↔
      (∃ e, x = .error e ∧ events = [] ∧ result = .error e) ∨
        ∃ a, x = .ok a ∧ Runs (f a) events result := by
  rw [runs_bind]
  simp only [runs_lift]
  constructor
  · rintro (⟨e, ⟨rfl, hx⟩, rfl⟩ | ⟨_, a, _, rfl, ⟨rfl, hx⟩, hrest⟩)
    · exact .inl ⟨e, hx.symm, rfl, rfl⟩
    · exact .inr ⟨a, hx.symm, hrest⟩
  · rintro (⟨e, hx, rfl, rfl⟩ | ⟨a, hx, hrest⟩)
    · exact .inl ⟨e, ⟨rfl, hx.symm⟩, rfl⟩
    · exact .inr ⟨[], a, events, rfl, ⟨rfl, hx.symm⟩, hrest⟩

/-- What is made of a result at the end asks for nothing. -/
theorem runs_bind_pure {x : Action I α} {f : α → β} {result : Except Failure β} :
    Runs (x >>= fun a => pure (f a)) events result ↔
      ∃ r : Except Failure α, Runs x events r ∧ result = r.map f := by
  rw [runs_bind]
  simp only [runs_pure]
  constructor
  · rintro (⟨e, hrun, rfl⟩ | ⟨_, a, _, rfl, hrun, rfl, rfl⟩)
    · exact ⟨.error e, hrun, rfl⟩
    · exact ⟨.ok a, (List.append_nil _).symm ▸ hrun, rfl⟩
  · rintro ⟨r, hrun, rfl⟩
    cases r with
    | error e => exact .inl ⟨e, hrun, rfl⟩
    | ok a => exact .inr ⟨events, a, [], (List.append_nil events).symm, hrun, rfl, rfl⟩

end Action

end DocTemplate
