import DocTemplate.Failure

/-!
# Programs

A program asks for something, is answered, and goes on according to the answer. What can be asked
for is an interface. Who answers is left open, so one and the same program runs against a service,
against a script of answers, or in terms of another program.

Main facts: the monad laws, and `interpret_bind` (answering one program after another is answering
their composition).
-/

namespace DocTemplate

/-- What a program can ask for, and what each request is answered with. -/
structure Interface where
  Request : Type
  Answer : Request → Type

/-- A program that asks for what `I` offers and ends with a result. -/
inductive Program (I : Interface) (α : Type) where
  | done (result : α)
  | ask (request : I.Request) (next : I.Answer request → Program I α)

namespace Program

variable {I : Interface} {α β γ : Type}

/-- The program that goes on with the result of another one. -/
def bind : Program I α → (α → Program I β) → Program I β
  | done a, f => f a
  | ask request next, f => ask request fun answer => (next answer).bind f

instance : Monad (Program I) where
  pure := done
  bind := bind

@[simp] theorem pure_eq_done (a : α) : (pure a : Program I α) = done a := rfl

@[simp] theorem done_bind (a : α) (f : α → Program I β) : done a >>= f = f a := rfl

@[simp] theorem ask_bind (request : I.Request) (next : I.Answer request → Program I α)
    (f : α → Program I β) : ask request next >>= f = ask request fun answer => next answer >>= f :=
  rfl

theorem bind_done (p : Program I α) : p >>= done = p := by
  induction p with
  | done a => rfl
  | ask request next ih => simp [ih]

theorem bind_bind (p : Program I α) (f : α → Program I β) (g : β → Program I γ) :
    p >>= f >>= g = p >>= fun a => f a >>= g := by
  induction p with
  | done a => rfl
  | ask request next ih => simp [ih]

instance : LawfulMonad (Program I) :=
  LawfulMonad.mk' (Program I)
    (fun p => bind_done p)
    (fun _ _ => rfl)
    bind_bind

/-- The program that makes one request and ends with the answer. -/
def request (r : I.Request) : Program I (I.Answer r) :=
  ask r done

/-- A program run in a monad that answers its requests. -/
def interpret {m : Type → Type} [Monad m] (answer : (r : I.Request) → m (I.Answer r)) :
    Program I α → m α
  | done a => pure a
  | ask r next => do
    let reply ← answer r
    interpret answer (next reply)

@[simp] theorem interpret_done {m : Type → Type} [Monad m]
    (answer : (r : I.Request) → m (I.Answer r)) (a : α) : (done a).interpret answer = pure a := rfl

@[simp] theorem interpret_ask {m : Type → Type} [Monad m]
    (answer : (r : I.Request) → m (I.Answer r)) (r : I.Request)
    (next : I.Answer r → Program I α) :
    (ask r next).interpret answer = answer r >>= fun reply => (next reply).interpret answer := rfl

theorem interpret_bind {m : Type → Type} [Monad m] [LawfulMonad m]
    (answer : (r : I.Request) → m (I.Answer r)) (p : Program I α) (f : α → Program I β) :
    (p >>= f).interpret answer = p.interpret answer >>= fun a => (f a).interpret answer := by
  induction p with
  | done a => simp
  | ask r next ih => simp [ih]

end Program

/-- A program that can fail. -/
abbrev Action (I : Interface) (α : Type) := ExceptT Failure (Program I) α

/-- The action that makes one request whose answer may be a failure. -/
def Action.request {I : Interface} {α : Type} (r : I.Request) (h : I.Answer r = Except Failure α) :
    Action I α :=
  ExceptT.mk (.ask r fun answer => .done (h ▸ answer))

end DocTemplate
