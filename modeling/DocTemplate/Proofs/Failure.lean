import DocTemplate.Document.Anchor
import Mathlib.Data.List.Forall2

/-!
# Steps that succeed and steps that fail

A computation that can stop succeeds if and only if each of its steps does. These are the facts by
which such a computation is taken apart into its steps. A computation none of whose steps stops with
an error of some kind avoids that kind of error as a whole (`Avoids.bind`).
-/

namespace DocTemplate

variable {ε α β : Type}

theorem bind_eq_ok_iff {x : Except ε α} {f : α → Except ε β} {b : β} :
    (x >>= f) = .ok b ↔ ∃ a, x = .ok a ∧ f a = .ok b := by
  cases x <;> simp [bind, Except.bind]

theorem pure_eq_ok_iff {a b : α} : (pure a : Except ε α) = .ok b ↔ a = b := by
  simp [pure, Except.pure]

theorem throw_ne_ok {e : ε} {a : α} : (throw e : Except ε α) ≠ .ok a := by
  simp [throw, throwThe, MonadExceptOf.throw]

theorem map_eq_ok_iff {x : Except ε α} {f : α → β} {b : β} :
    f <$> x = .ok b ↔ ∃ a, x = .ok a ∧ f a = b := by
  cases x <;> simp [Functor.map, Except.map]

theorem liftM_fault_eq_ok_iff {x : Except Fault α} {a : α} :
    (liftM x : Except Failure α) = .ok a ↔ x = .ok a := by
  cases x <;> simp [liftM, monadLift, MonadLift.monadLift]

theorem liftM_fault_eq_error_iff {x : Except Fault α} {e : Failure} :
    (liftM x : Except Failure α) = .error e ↔ ∃ f, x = .error f ∧ .fault f = e := by
  cases x <;> simp [liftM, monadLift, MonadLift.monadLift]

theorem liftM_engine_eq_ok_iff {x : Except EngineError α} {a : α} :
    (liftM x : Except Failure α) = .ok a ↔ x = .ok a := by
  cases x <;> simp [liftM, monadLift, MonadLift.monadLift]

theorem mapM_eq_ok_map {f : α → Except ε β} {g : α → β} {items : List α}
    (h : ∀ a ∈ items, f a = .ok (g a)) : items.mapM f = .ok (items.map g) := by
  induction items with
  | nil => rfl
  | cons a rest ih =>
    obtain ⟨ha, hrest⟩ := List.forall_mem_cons.1 h
    rw [List.mapM_cons, ha, ih hrest]
    rfl

theorem forall₂_of_mapM {f : α → Except ε β} {items : List α} {results : List β}
    (h : items.mapM f = .ok results) : List.Forall₂ (fun a b => f a = .ok b) items results := by
  induction items generalizing results with
  | nil =>
    rw [List.mapM_nil, pure_eq_ok_iff] at h
    exact h ▸ .nil
  | cons a rest ih =>
    simp only [List.mapM_cons, bind_eq_ok_iff, pure_eq_ok_iff] at h
    obtain ⟨b, hb, bs, hbs, rfl⟩ := h
    exact .cons hb (ih hbs)

/-! ## Kinds of errors -/

/-- The computation does not stop with an error of this kind. -/
def Avoids (kind : ε → Prop) (x : Except ε α) : Prop :=
  ∀ e, kind e → x ≠ .error e

section Avoids

variable {kind : ε → Prop}

theorem avoids_ok (a : α) : Avoids kind (.ok a) :=
  fun _ _ h => absurd h (by simp)

theorem avoids_error {e : ε} (h : ¬ kind e) : Avoids kind (.error e : Except ε α) := by
  intro e' he' heq
  rw [Except.error.inj heq] at h
  exact h he'

theorem Avoids.bind {x : Except ε α} {f : α → Except ε β} (hx : Avoids kind x)
    (hf : ∀ a, Avoids kind (f a)) : Avoids kind (x >>= f) := by
  intro e he h
  cases x with
  | error e' => exact hx e he (congrArg Except.error (Except.error.inj h))
  | ok a => exact hf a e he h

end Avoids

end DocTemplate
