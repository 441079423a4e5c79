import DocTemplate.Text.Basic

/-!
# UTF-16 code units

A document counts its positions in UTF-16 code units: a character outside the basic plane takes
two, every other one takes one. Main facts: `units_append`, `length_le_units`.
-/

namespace DocTemplate

/-- How many UTF-16 code units a character takes. -/
def charUnits (c : Char) : Nat :=
  if c.toNat < 0x10000 then 1 else 2

namespace Text

/-- How many UTF-16 code units a text takes. -/
def units : Text → Nat
  | [] => 0
  | c :: rest => charUnits c + units rest

end Text

theorem charUnits_pos (c : Char) : 0 < charUnits c := by
  unfold charUnits
  split <;> decide

namespace Text

@[simp] theorem units_nil : units [] = 0 := rfl

@[simp] theorem units_cons (c : Char) (t : Text) : units (c :: t) = charUnits c + units t := rfl

@[simp] theorem units_append (s t : Text) : units (s ++ t) = units s + units t := by
  induction s with
  | nil => simp
  | cons c s ih => simp [ih, Nat.add_assoc]

theorem length_le_units (t : Text) : t.length ≤ t.units := by
  induction t with
  | nil => simp
  | cons c t ih =>
    have := charUnits_pos c
    simp only [List.length_cons, units_cons]
    omega

end Text

end DocTemplate
