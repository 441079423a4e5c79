import DocTemplate.Json.Arithmetic

/-!
# Shifted positions

Positions that were read before some insertions, as they are after them. The insertions are noted
at the positions that they had before any of them was made; one at a position moves that position
and everything behind it.

Callers may also send positions and lengths as any JSON data (`Insertions.mapData`). On integers
this is the same map (`mapData_int`).
-/

namespace DocTemplate

/-- The insertions made so far: position and length of each, in the order in which they were
made. -/
structure Insertions where
  list : List (Int × Int) := []
  deriving Repr

namespace Insertions

/-- Notes an insertion of `length` positions at `index`. One of no length is not noted. -/
def record (s : Insertions) (index length : Int) : Insertions :=
  if length = 0 then s else ⟨s.list ++ [(index, length)]⟩

/-- By how much a position is moved. -/
def shiftAt (s : Insertions) (index : Int) : Int :=
  (s.list.filter fun i => i.1 ≤ index).foldl (fun moved i => moved + i.2) 0

/-- Where a position is after the insertions. -/
def map (s : Insertions) (index : Int) : Int :=
  index + s.shiftAt index

@[simp] theorem map_empty (index : Int) : (Insertions.mk []).map index = index := by
  simp [map, shiftAt]

theorem map_record (s : Insertions) (place length index : Int) :
    (s.record place length).map index = s.map index + (if place ≤ index then length else 0) := by
  unfold record
  split
  · next h => subst h; split <;> simp
  · by_cases h : place ≤ index <;> simp [map, shiftAt, List.filter_append, h, Int.add_assoc]

/-! ## Insertions as callers send them -/

/-- By how much a position is moved, after one more insertion: its position and its length. -/
def movedBy (index : Json) (moved : Int) (insertion : Json × Json) : Except Fault Int := do
  if ← insertion.1.atMost index then Json.addedTo moved insertion.2 else return moved

/-- Where a position is after some insertions. Those whose length is not given are left out. -/
def mapData (insertions : List (Json × Json)) (index : Json) : Except Fault Int := do
  let moved ← (insertions.filter (·.2.isGiven)).foldlM (movedBy index) 0
  index.plus moved

theorem foldlM_movedBy_int (list : List (Int × Int)) (index moved : Int) :
    ((list.map fun i => (Json.int i.1, Json.int i.2)).filter (·.2.isGiven)).foldlM
      (movedBy (.int index)) moved =
    .ok ((list.filter fun i => i.1 ≤ index).foldl (fun moved i => moved + i.2) moved) := by
  induction list generalizing moved with
  | nil => rfl
  | cons i rest ih =>
    obtain ⟨place, length⟩ := i
    by_cases hl : length = 0 <;> by_cases hp : place ≤ index <;>
      simp [Json.isGiven, movedBy, hl, hp, bind, Except.bind, pure, Except.pure] <;>
      simpa [Json.isGiven] using ih _

theorem mapData_int (s : Insertions) (index : Int) :
    mapData (s.list.map fun i => (.int i.1, .int i.2)) (.int index) = .ok (s.map index) := by
  simp only [mapData, foldlM_movedBy_int, bind, Except.bind, Json.plus_int, map, shiftAt]

end Insertions

end DocTemplate
