import Mathlib.Data.List.Basic

/-!
# Splicing

Replacing several parts of a list at once. The parts are given by their ranges in the list as it is,
in increasing order, so that no replacement has to know how the ones before it move things.
-/

namespace DocTemplate

/-- A part of a list, from `start` up to `stop`, and the items that take its place. -/
structure Replacement (α : Type) where
  start : Nat
  stop : Nat
  items : List α

variable {α : Type}

/-- What follows position `cursor` in a list, with some of its parts replaced. -/
def spliceFrom (cursor : Nat) (xs : List α) : List (Replacement α) → List α
  | [] => xs
  | r :: rest =>
    xs.take (r.start - cursor) ++ r.items ++ spliceFrom r.stop (xs.drop (r.stop - cursor)) rest

/-- A list with some of its parts replaced; the parts in increasing order. -/
def splice (xs : List α) (parts : List (Replacement α)) : List α :=
  spliceFrom 0 xs parts

/-- A part of a list stands between what precedes it and what follows it. -/
theorem exists_eq_append_append {l : List α} {i k : Nat} (h : i + k ≤ l.length) :
    ∃ pre mid post, l = pre ++ (mid ++ post) ∧ pre.length = i ∧ mid.length = k := by
  refine ⟨l.take i, (l.drop i).take k, (l.drop i).drop k, ?_, List.length_take_of_le (by omega),
    List.length_take_of_le ?_⟩
  · rw [List.take_append_drop, List.take_append_drop]
  · rw [List.length_drop]
    omega

/-- Items in front of every part stay as they are. -/
theorem spliceFrom_append (a b : List α) {cursor : Nat} {parts : List (Replacement α)}
    (h : ∀ r ∈ parts, cursor + a.length ≤ r.start ∧ r.start ≤ r.stop) :
    spliceFrom cursor (a ++ b) parts = a ++ spliceFrom (cursor + a.length) b parts := by
  cases parts with
  | nil => rfl
  | cons r rest =>
    obtain ⟨hstart, hstop⟩ := h r List.mem_cons_self
    have htake : (a ++ b).take (r.start - cursor) =
        a ++ b.take (r.start - (cursor + a.length)) := by
      rw [List.take_append, List.take_of_length_le (by omega), Nat.sub_sub]
    have hdrop : (a ++ b).drop (r.stop - cursor) = b.drop (r.stop - (cursor + a.length)) := by
      rw [List.drop_append, List.drop_eq_nil_of_le (by omega), List.nil_append, Nat.sub_sub]
    rw [spliceFrom, spliceFrom, htake, hdrop, List.append_assoc, List.append_assoc,
      List.append_assoc]

/-- A part that starts at the cursor is replaced, and the rest is spliced from behind it. -/
theorem spliceFrom_cons (a b : List α) {cursor : Nat} {items : List α}
    {parts : List (Replacement α)} :
    spliceFrom cursor (a ++ b) (⟨cursor, cursor + a.length, items⟩ :: parts) =
      items ++ spliceFrom (cursor + a.length) b parts := by
  rw [spliceFrom, Nat.sub_self, List.take_zero, List.nil_append, Nat.add_sub_cancel_left,
    List.drop_left]

/-- Parts of which each stands in the first or in the second half of a list are replaced in that
half. -/
theorem spliceFrom_append_append (a b : List α) {cursor : Nat} {parts more : List (Replacement α)}
    (hp : parts.Pairwise fun r r' => r.stop ≤ r'.start)
    (hparts : ∀ r ∈ parts,
      cursor ≤ r.start ∧ r.start ≤ r.stop ∧ r.stop ≤ cursor + a.length)
    (hmore : ∀ r ∈ more, cursor + a.length ≤ r.start ∧ r.start ≤ r.stop) :
    spliceFrom cursor (a ++ b) (parts ++ more) =
      spliceFrom cursor a parts ++ spliceFrom (cursor + a.length) b more := by
  induction parts generalizing cursor a with
  | nil => exact spliceFrom_append a b hmore
  | cons r rest ih =>
    obtain ⟨hfirst, hrest⟩ := List.pairwise_cons.1 hp
    obtain ⟨h1, h2, h3⟩ := hparts r List.mem_cons_self
    have htake : (a ++ b).take (r.start - cursor) = a.take (r.start - cursor) :=
      List.take_append_of_le_length (by omega)
    have hdrop : (a ++ b).drop (r.stop - cursor) = a.drop (r.stop - cursor) ++ b :=
      List.drop_append_of_le_length (by omega)
    have hlength : r.stop + (a.drop (r.stop - cursor)).length = cursor + a.length := by
      rw [List.length_drop]
      omega
    rw [List.cons_append, spliceFrom, spliceFrom, htake, hdrop, ih _ hrest, hlength]
    · simp only [List.append_assoc]
    · intro x hx
      obtain ⟨-, h5, h6⟩ := hparts x (List.mem_cons_of_mem _ hx)
      have := hfirst x hx
      exact ⟨this, h5, by omega⟩
    · rwa [hlength]

/-- Parts and cursor can be counted from another position. -/
theorem spliceFrom_add (cursor k : Nat) (xs : List α) (parts : List (Replacement α)) :
    spliceFrom (cursor + k) xs (parts.map fun r => ⟨r.start + k, r.stop + k, r.items⟩) =
      spliceFrom cursor xs parts := by
  induction parts generalizing cursor xs with
  | nil => rfl
  | cons r rest ih =>
    rw [List.map_cons, spliceFrom, spliceFrom, ih, Nat.add_sub_add_right, Nat.add_sub_add_right]

end DocTemplate
