import DocTemplate.Json.Number
import DocTemplate.Json.Shape

/-!
# Values that equal themselves

Objects are compared by looking up the fields of one in the other. A value in which no object has
two fields of one name equals itself (`same_self`), and so does every part of it
(`DistinctNames.of_get?`).
-/

namespace DocTemplate.Json

mutual

/-- No object in the value has two fields of one name. -/
def DistinctNames : Json → Prop
  | arr items => itemsDistinct items
  | obj fields => (fields.map Prod.fst).Nodup ∧ fieldsDistinct fields
  | _ => True

/-- No object in one of the items has two fields of one name. -/
def itemsDistinct : List Json → Prop
  | [] => True
  | v :: rest => v.DistinctNames ∧ itemsDistinct rest

/-- No object in the value of one of the fields has two fields of one name. -/
def fieldsDistinct : List (String × Json) → Prop
  | [] => True
  | (_, v) :: rest => v.DistinctNames ∧ fieldsDistinct rest

end

theorem lookup_of_mem {fields : List (String × Json)} (h : (fields.map Prod.fst).Nodup)
    {key : String} {v : Json} (hmem : (key, v) ∈ fields) : fields.lookup key = some v := by
  induction fields with
  | nil => exact absurd hmem List.not_mem_nil
  | cons first rest ih =>
    obtain ⟨hnew, hrest⟩ := List.nodup_cons.1 h
    rcases List.mem_cons.1 hmem with rfl | hlater
    · exact List.lookup_cons_self
    · have hne : key ≠ first.1 := fun heq => hnew (heq ▸ List.mem_map_of_mem hlater)
      rw [List.lookup_cons, beq_false_of_ne hne]
      exact ih hrest hlater

mutual

theorem same_self : ∀ {j : Json}, j.DistinctNames → j.same j = true
  | null, _ => by simp [same]
  | bool _, _ => by simp [same, sameNumber, number?]
  | int _, _ => by simp
  | str _, _ => by simp
  | arr items, h => by
    rw [same]
    exact sameItems_self h
  | obj fields, h => by
    rw [same, beq_self_eq_true, Bool.true_and]
    exact sameFields_self h.2 fun _ _ => lookup_of_mem h.1

theorem sameItems_self : ∀ {items : List Json}, itemsDistinct items → sameItems items items = true
  | [], _ => by simp [sameItems]
  | _ :: _, h => by rw [sameItems, same_self h.1, sameItems_self h.2, Bool.and_self]

theorem sameFields_self : ∀ {fields others : List (String × Json)}, fieldsDistinct fields →
    (∀ key v, (key, v) ∈ fields → others.lookup key = some v) → sameFields fields others = true
  | [], _, _, _ => by simp [sameFields]
  | (key, v) :: _, _, h, hothers => by
    have hfound := hothers key v List.mem_cons_self
    have hrest := sameFields_self h.2 fun key v hv => hothers key v (List.mem_cons_of_mem _ hv)
    rw [sameFields, hfound, hrest, Bool.and_true]
    exact same_self h.1

end

theorem distinctNames_of_lookup {fields : List (String × Json)} {key : String} {v : Json}
    (hfields : fieldsDistinct fields) (h : fields.lookup key = some v) : v.DistinctNames := by
  induction fields with
  | nil => exact absurd h (by simp)
  | cons first rest ih =>
    obtain ⟨name, w⟩ := first
    rw [List.lookup_cons] at h
    split at h
    · exact Option.some.inj h ▸ hfields.1
    · exact ih hfields.2 h

theorem DistinctNames.of_get? {j v : Json} {key : String} (hj : j.DistinctNames)
    (h : j.get? key = some v) : v.DistinctNames := by
  cases j with
  | obj fields => exact distinctNames_of_lookup hj.2 h
  | _ => exact absurd h (by simp [get?])

end DocTemplate.Json
