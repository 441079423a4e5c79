import DocTemplate.Text.Basic

/-!
# Ordered maps

Maps from names to values that keep the order in which the names were first entered. Entering a
name again changes its value and not its place.

Main facts: `get?_insert`, and `nodup`, which is part of the type.
-/

namespace DocTemplate

/-- Entries with distinct names, in the order in which the names were first entered. -/
structure OrderedMap (α : Type) where
  entries : List (Text × α)
  nodup : (entries.map Prod.fst).Nodup

namespace OrderedMap

variable {α : Type}

/-- The map without entries. -/
def empty : OrderedMap α := ⟨[], List.nodup_nil⟩

instance : Inhabited (OrderedMap α) := ⟨empty⟩

/-- The names in order. -/
def keys (m : OrderedMap α) : List Text :=
  m.entries.map Prod.fst

/-- The value entered under a name. -/
def get? (m : OrderedMap α) (key : Text) : Option α :=
  m.entries.lookup key

/-- Whether a map has no entries. -/
def isEmpty (m : OrderedMap α) : Bool :=
  m.entries.isEmpty

/-- Entries with the value of one name changed, or with the name at the end if it is new. -/
def insertInto (key : Text) (value : α) : List (Text × α) → List (Text × α)
  | [] => [(key, value)]
  | (k, v) :: rest => if k = key then (k, value) :: rest else (k, v) :: insertInto key value rest

theorem mem_keys_insertInto {key k : Text} {value : α} {entries : List (Text × α)} :
    k ∈ (insertInto key value entries).map Prod.fst ↔ k = key ∨ k ∈ entries.map Prod.fst := by
  induction entries with
  | nil => simp [insertInto]
  | cons e rest ih =>
    obtain ⟨k', v⟩ := e
    by_cases h : k' = key
    · subst h
      simp [insertInto]
    · simp only [insertInto, h, if_false, List.map_cons, List.mem_cons, ih]
      constructor
      · rintro (h | h | h)
        · exact .inr (.inl h)
        · exact .inl h
        · exact .inr (.inr h)
      · rintro (h | h | h)
        · exact .inr (.inl h)
        · exact .inl h
        · exact .inr (.inr h)

theorem nodup_insertInto (key : Text) (value : α) {entries : List (Text × α)}
    (h : (entries.map Prod.fst).Nodup) : ((insertInto key value entries).map Prod.fst).Nodup := by
  induction entries with
  | nil => simp [insertInto]
  | cons e rest ih =>
    obtain ⟨k, v⟩ := e
    by_cases hk : k = key
    · simpa [insertInto, hk] using h
    · simp only [List.map_cons, List.nodup_cons] at h
      simp only [insertInto, hk, if_false, List.map_cons, List.nodup_cons]
      refine ⟨?_, ih h.2⟩
      rw [mem_keys_insertInto]
      rintro (h' | h')
      · exact hk h'
      · exact h.1 h'

/-- The map with a value entered under a name. -/
def insert (m : OrderedMap α) (key : Text) (value : α) : OrderedMap α :=
  ⟨insertInto key value m.entries, nodup_insertInto key value m.nodup⟩

/-- The map of some entries, entered one after another. -/
def ofList (entries : List (Text × α)) : OrderedMap α :=
  entries.foldl (fun m e => m.insert e.1 e.2) empty

theorem lookup_insertInto (key k : Text) (value : α) (entries : List (Text × α)) :
    (insertInto key value entries).lookup k = if k = key then some value else entries.lookup k := by
  induction entries with
  | nil =>
    by_cases h : k = key
    · simp [insertInto, h]
    · simp [insertInto, List.lookup_cons, h, beq_false_of_ne h]
  | cons e rest ih =>
    obtain ⟨k', v⟩ := e
    by_cases h : k' = key
    · subst h
      by_cases hk : k = k'
      · simp [insertInto, hk]
      · simp [insertInto, List.lookup_cons, hk, beq_false_of_ne hk]
    · simp only [insertInto, h, if_false, List.lookup_cons, ih]
      by_cases hk : k = k'
      · subst hk
        simp [h]
      · simp [beq_false_of_ne hk]

theorem get?_insert (m : OrderedMap α) (key k : Text) (value : α) :
    (m.insert key value).get? k = if k = key then some value else m.get? k :=
  lookup_insertInto key k value m.entries

end OrderedMap

end DocTemplate
