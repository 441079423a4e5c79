import DocTemplate.Edit.Basic
import DocTemplate.Edit.Shift

/-!
# Edits on slots

A document seen as the sequence of its positions, each a slot that something stands in. An edit
that inserts puts new slots in front of an existing one, an edit that deletes takes slots away, and
all other edits leave the slots where they are. What a batch does to a document is then a list that
can be compared with the one it started from.

`weave` puts slots into a list in front of the slots at given positions of the list as it is.
Inserting them one after another, each at the position that the insertions so far have moved it to,
gives the same list (`insertSlots_weave`).
-/

namespace DocTemplate

/-- What stands at a position of a document: one of the positions that the document had at first, a
position of a table of some size, or a code unit of a text that was inserted. -/
inductive Slot where
  | native (index : Nat)
  | table (rows columns : Int) (place : Nat)
  | unit (text : Text) (place : Nat)
  deriving DecidableEq, Repr

/-- The slots of a text that is inserted. -/
def textSlots (t : Text) : List Slot :=
  (List.range t.units).map (.unit t)

/-- The slots of a table that is inserted and still empty. -/
def TableGeometry.slots (g : TableGeometry) : List Slot :=
  (List.range g.size.toNat).map (.table g.rows g.columns)

@[simp] theorem length_textSlots (t : Text) : (textSlots t).length = t.units := by
  rw [textSlots, List.length_map, List.length_range]

@[simp] theorem TableGeometry.length_slots (g : TableGeometry) :
    g.slots.length = g.size.toNat := by
  rw [slots, List.length_map, List.length_range]

/-! ## Carrying out edits -/

/-- Slots with new ones in front of the slot at `index`, which has to exist. -/
def insertSlots (slots new : List Slot) (index : Int) : Option (List Slot) :=
  if 0 ≤ index ∧ index < slots.length then
    some (slots.take index.toNat ++ new ++ slots.drop index.toNat)
  else none

/-- Slots without those from `start` up to `stop`, which have to exist. -/
def removeSlots (slots : List Slot) (start stop : Int) : Option (List Slot) :=
  if 0 ≤ start ∧ start ≤ stop ∧ stop ≤ slots.length then
    some (slots.take start.toNat ++ slots.drop stop.toNat)
  else none

/-- Slots after an edit, unless it cannot be carried out. -/
def Edit.onSlots (slots : List Slot) : Edit → Option (List Slot)
  | .insertText index (.text t) =>
    index.number?.bind fun index => insertSlots slots (textSlots t) index.value
  | .insertText _ (.data _) => none
  | .insertTable index rows columns =>
    match TableGeometry.read index rows columns with
    | .ok g => insertSlots slots g.slots g.insertionIndex
    | .error _ => none
  | .deleteRange start stop =>
    start.number?.bind fun start => stop.number?.bind fun stop =>
      removeSlots slots start.value stop.value
  | _ => some slots

/-- Slots after some edits, in order. -/
def executeEdits (slots : List Slot) (edits : List Edit) : Option (List Slot) :=
  edits.foldlM Edit.onSlots slots

theorem insertSlots_length (l new : List Slot) {r : List Slot} (hr : r ≠ []) :
    insertSlots (l ++ r) new l.length = some (l ++ new ++ r) := by
  have hpos := List.length_pos_iff.2 hr
  rw [insertSlots, if_pos ⟨Int.natCast_nonneg _, by rw [List.length_append]; omega⟩,
    Int.toNat_natCast, List.take_left, List.drop_left]

theorem removeSlots_length (l m r : List Slot) :
    removeSlots (l ++ (m ++ r)) l.length (l.length + m.length) = some (l ++ r) := by
  have htake : (l ++ (m ++ r)).take l.length = l := List.take_left
  have hdrop : (l ++ (m ++ r)).drop (l.length + m.length) = r := by
    rw [List.drop_length_add_append, List.drop_left]
  rw [removeSlots, if_pos]
  · rw [← Int.natCast_add, Int.toNat_natCast, Int.toNat_natCast, htake, hdrop]
  · simp only [List.length_append]
    omega

theorem executeEdits_append (slots : List Slot) (a b : List Edit) :
    executeEdits slots (a ++ b) = (executeEdits slots a).bind fun slots => executeEdits slots b :=
  List.foldlM_append

theorem executeEdits_cons (slots : List Slot) (e : Edit) (rest : List Edit) :
    executeEdits slots (e :: rest) = (e.onSlots slots).bind fun slots => executeEdits slots rest :=
  List.foldlM_cons

/-- Edits of which none moves a slot leave the slots as they are. -/
theorem executeEdits_of_still {slots : List Slot} {edits : List Edit}
    (h : ∀ e ∈ edits, e.onSlots slots = some slots) : executeEdits slots edits = some slots := by
  induction edits with
  | nil => rfl
  | cons e rest ih =>
    rw [executeEdits_cons, h e List.mem_cons_self, Option.bind_some]
    exact ih fun e he => h e (List.mem_cons_of_mem _ he)

/-! ## Weaving -/

section Weave

variable {α : Type} {ins : List (Int × List α)} {new : List α}

/-- What is put in front of the item at position `i`. -/
def insertedAt (ins : List (Int × List α)) (i : Int) : List α :=
  (ins.filter (·.1 = i)).flatMap (·.2)

/-- A list whose first item has position `start`, with everything put in front of the items that it
belongs in front of. -/
def weave (ins : List (Int × List α)) (start : Int) : List α → List α
  | [] => []
  | x :: xs => insertedAt ins start ++ x :: weave ins (start + 1) xs

theorem weave_append (start : Int) (a b : List α) :
    weave ins start (a ++ b) = weave ins start a ++ weave ins (start + a.length) b := by
  induction a generalizing start with
  | nil => simp [weave]
  | cons x a ih =>
    have hstart : start + ((x :: a).length : Int) = start + 1 + a.length := by
      rw [List.length_cons]
      omega
    rw [List.cons_append, weave, weave, ih, hstart, List.append_assoc, List.cons_append]

theorem insertedAt_concat (q i : Int) :
    insertedAt (ins ++ [(q, new)]) i = insertedAt ins i ++ if q = i then new else [] := by
  rw [insertedAt, List.filter_append, List.flatMap_append, insertedAt]
  by_cases h : q = i <;> simp [h]

theorem weave_eq_self {start : Int} {xs : List α}
    (h : ∀ i ∈ ins, i.1 < start ∨ start + xs.length ≤ i.1) : weave ins start xs = xs := by
  induction xs generalizing start with
  | nil => rfl
  | cons x xs ih =>
    simp only [List.length_cons] at h
    have hhead : insertedAt ins start = [] := by
      rw [insertedAt, List.filter_eq_nil_iff.2, List.flatMap_nil]
      intro i hi
      have := h i hi
      simp only [decide_eq_true_eq]
      omega
    rw [weave, hhead, List.nil_append, ih]
    intro i hi
    have := h i hi
    omega

/-- Something put in front of an item elsewhere makes no difference. -/
theorem weave_concat_of_apart {q start : Int} {xs : List α}
    (h : q < start ∨ start + xs.length ≤ q) :
    weave (ins ++ [(q, new)]) start xs = weave ins start xs := by
  induction xs generalizing start with
  | nil => rfl
  | cons x xs ih =>
    simp only [List.length_cons] at h
    rw [weave, weave, insertedAt_concat, if_neg (by omega), List.append_nil, ih (by omega)]

/-- Something put in front of one more item stands behind everything that already was in front of
that item. -/
theorem weave_concat (start : Int) (l r : List α) (x : α) :
    weave (ins ++ [(start + l.length, new)]) start (l ++ x :: r) =
      (weave ins start l ++ insertedAt ins (start + l.length)) ++ new ++
        x :: weave ins (start + l.length + 1) r := by
  rw [weave_append, weave, insertedAt_concat, if_pos rfl, weave_concat_of_apart (by omega),
    weave_concat_of_apart (by omega)]
  simp only [List.append_assoc]

theorem weave_split (start : Int) (l r : List α) (x : α) :
    weave ins start (l ++ x :: r) =
      (weave ins start l ++ insertedAt ins (start + l.length)) ++
        x :: weave ins (start + l.length + 1) r := by
  rw [weave_append, weave, List.append_assoc]

theorem exists_eq_append_cons {l : List α} {q : Int} (hq : 0 ≤ q) (hlt : q < l.length) :
    ∃ a x b, l = a ++ x :: b ∧ q = 0 + (a.length : Int) := by
  have hn : q.toNat < l.length := by omega
  refine ⟨l.take q.toNat, l[q.toNat], l.drop (q.toNat + 1), ?_, ?_⟩
  · rw [← List.drop_eq_getElem_cons hn, List.take_append_drop]
  · rw [List.length_take]
    omega

/-- How many items stand in front of the one at a position when something is put in front of one
more item. -/
theorem length_weave_concat {q : Int} (hq : 0 ≤ q) (l : List α) :
    ((weave (ins ++ [(q, new)]) 0 l ++ insertedAt (ins ++ [(q, new)]) l.length).length : Int) =
      (weave ins 0 l ++ insertedAt ins l.length).length +
        if q ≤ l.length then (new.length : Int) else 0 := by
  rcases Int.lt_trichotomy q l.length with hlt | heq | hgt
  · obtain ⟨a, x, b, rfl, ha⟩ := exists_eq_append_cons hq hlt
    rw [ha, weave_concat, weave_split, ← ha, insertedAt_concat, if_neg (by omega),
      if_pos (by omega)]
    simp only [List.length_append, List.length_cons, List.append_nil]
    omega
  · rw [weave_concat_of_apart (by omega), insertedAt_concat, if_pos heq, if_pos (by omega)]
    simp only [List.length_append]
    omega
  · rw [weave_concat_of_apart (by omega), insertedAt_concat, if_neg (by omega), if_neg (by omega),
      List.append_nil, Int.add_zero]

end Weave

/-! ## Insertions one after another -/

/-- The insertions `done` move every position to where `ins` moves it. -/
def Insertions.Tracks (done : Insertions) (ins : List (Int × List Slot)) : Prop :=
  ∀ l : List Slot, done.map l.length = (weave ins 0 l ++ insertedAt ins l.length).length

theorem Insertions.tracks_nil : Insertions.Tracks {} [] := by
  intro l
  rw [map_empty, weave_eq_self (by simp)]
  simp [insertedAt]

theorem Insertions.Tracks.record {done : Insertions} {ins : List (Int × List Slot)}
    (h : done.Tracks ins) {q : Int} (hq : 0 ≤ q) (new : List Slot) :
    (done.record q new.length).Tracks (ins ++ [(q, new)]) := by
  intro l
  rw [map_record, h l, length_weave_concat hq]

/-- Inserting in front of a slot at the position that it was moved to. -/
theorem insertSlots_weave {done : Insertions} {ins : List (Int × List Slot)}
    (h : done.Tracks ins) {base : List Slot} {q : Int} (hq : 0 ≤ q) (hlt : q < base.length)
    (new : List Slot) :
    insertSlots (weave ins 0 base) new (done.map q) = some (weave (ins ++ [(q, new)]) 0 base) := by
  obtain ⟨a, x, b, rfl, rfl⟩ := exists_eq_append_cons hq hlt
  rw [weave_concat, weave_split, Int.zero_add, h a]
  exact insertSlots_length _ _ (List.cons_ne_nil _ _)

end DocTemplate
