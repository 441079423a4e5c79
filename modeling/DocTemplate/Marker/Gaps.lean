/-!
# Gaps

The ranges of a text that are left over when some ranges of it are taken. The ranges that are taken
may come in any order, overlap, and reach beyond the text on either side.
-/

namespace DocTemplate

/-- Order of ranges: by start, then by stop. -/
def rangeLe (a b : Int × Int) : Bool :=
  a.1 < b.1 || (a.1 == b.1 && a.2 ≤ b.2)

/-- The gaps from `cursor` on that ranges in increasing order leave in the first `length`
offsets. -/
def gapsFrom (length cursor : Nat) : List (Int × Int) → List (Nat × Nat)
  | [] => if cursor < length then [(cursor, length)] else []
  | (start, stop) :: rest =>
    (if (cursor : Int) < start then [(cursor, start.toNat)] else []) ++
      gapsFrom length (max cursor stop.toNat) rest

/-- The ranges of the first `length` offsets that `taken` leaves. -/
def gaps (length : Nat) (taken : List (Int × Int)) : List (Nat × Nat) :=
  gapsFrom length 0 (taken.mergeSort rangeLe)

end DocTemplate
