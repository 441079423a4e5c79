/-!
# Texts

A text is the list of its code points, and every offset into a text counts code points. This
module holds the operations that the rest of the library builds on: slices, removing a known
start, filling up to a width, and the scan for the leftmost matches that do not overlap.

Main facts: `stripStart_append` and `eq_append_of_stripStart` (removing a start is the inverse of
writing it), `length_padRight`.
-/

namespace DocTemplate

/-- A text is the list of its code points. -/
abbrev Text := List Char

namespace Text

/-- Comparing texts is deciding whether they are the same. Whatever looks for a text in a list of
texts rests on this one fact. -/
instance lawfulBEq : LawfulBEq Text :=
  inferInstance

/-- The part of `t` from offset `start` up to, but not including, offset `stop`. -/
def slice (t : Text) (start stop : Nat) : Text :=
  (t.drop start).take (stop - start)

/-- What follows `start` in a text that begins with it. -/
def stripStart : (start t : Text) → Option Text
  | [], t => some t
  | _ :: _, [] => none
  | p :: start, c :: t => if p = c then stripStart start t else none

/-- `t` followed by as many spaces as it needs to be `width` long. -/
def padRight (t : Text) (width : Nat) : Text :=
  t ++ List.replicate (width - t.length) ' '

/-- The texts in order, with `separator` between neighbours. -/
def join (separator : Text) : List Text → Text
  | [] => []
  | [t] => t
  | t :: rest => t ++ separator ++ join separator rest

/-- Lexicographic order of texts by code point. -/
def le : Text → Text → Bool
  | [], _ => true
  | _ :: _, [] => false
  | a :: s, b :: t => a.toNat < b.toNat || (a == b && le s t)

/-! ## The leftmost matches -/

/-- Something that stands in a text from `start` up to `stop`. -/
structure Found (α : Type) where
  start : Nat
  stop : Nat
  value : α
  deriving Repr

/-- The leftmost matches in a text whose first character has offset `offset`. A matcher is shown
the text from some offset on and answers what it finds there and how long that is. A match that
starts inside an earlier one does not count: `skip` is how much of the last match is still to
come. -/
def scanFrom {α : Type} (find : Text → Option (α × Nat)) (skip offset : Nat) :
    Text → List (Found α)
  | [] => []
  | c :: rest =>
    match skip with
    | skip + 1 => scanFrom find skip (offset + 1) rest
    | 0 =>
      match find (c :: rest) with
      | some (value, size) =>
        ⟨offset, offset + size, value⟩ :: scanFrom find (size - 1) (offset + 1) rest
      | none => scanFrom find 0 (offset + 1) rest

/-- The leftmost matches in the part of `t` from `start` up to `stop`, at their offsets in `t`. -/
def scanWithin {α : Type} (find : Text → Option (α × Nat)) (t : Text) (start stop : Nat) :
    List (Found α) :=
  scanFrom find 0 start (t.slice start stop)

/-! ## Small facts -/

@[simp] theorem stripStart_append (p t : Text) : stripStart p (p ++ t) = some t := by
  induction p with
  | nil => rfl
  | cons c p ih => simp [stripStart, ih]

theorem eq_append_of_stripStart {p t r : Text} (h : stripStart p t = some r) : t = p ++ r := by
  induction p generalizing t with
  | nil => simpa [stripStart] using h
  | cons c p ih =>
    cases t with
    | nil => simp [stripStart] at h
    | cons d t =>
      by_cases hd : c = d
      · simp only [stripStart, hd, if_true] at h
        rw [hd, ih h, List.cons_append]
      · simp [stripStart, hd] at h

@[simp] theorem length_padRight (t : Text) (width : Nat) :
    (padRight t width).length = max width t.length := by
  simp only [padRight, List.length_append, List.length_replicate]
  omega

theorem isSome_stripStart_iff {p t : Text} : (stripStart p t).isSome = true ↔ p <+: t := by
  rw [Option.isSome_iff_exists]
  constructor
  · rintro ⟨r, h⟩
    exact ⟨r, (eq_append_of_stripStart h).symm⟩
  · rintro ⟨r, rfl⟩
    exact ⟨r, stripStart_append p r⟩

end Text

end DocTemplate
