import DocTemplate.Proofs.Plan.TableFill
import DocTemplate.Proofs.Splice

/-!
# Filling any table

The edits that fill a table one cell after another do to the slots of a document what putting in
all texts at once and taking the marker out would do (`executeEdits_planTableFill`). The table may
be any, with its cells at any positions and in any order, and several cells may take their texts at
one position.

Every text goes in at the position that the texts before it have moved its place to, and the two
ends of the marker are moved in the same way. What carries the argument is that moving a position
counts the slots in front of its place (`Insertions.Tracks`); that is why the slots between the
moved ends of the marker are those of the marker alone, unless a text goes in between
(`removeSlots_weave`). Nothing but styles is set between a text and the next one, so the range that
a style is set for is still that of the text (`stylesInserted_fillCells`).
-/

namespace DocTemplate

/-! ## All at once -/

/-- The texts that go in front of the slot at a position, and the slot itself unless it is one of
those from `start` up to `stop`. -/
def fillSlot (texts : List (Int × List Slot)) (start stop : Int) (slot : Slot × Nat) : List Slot :=
  insertedAt texts slot.2 ++ if start ≤ slot.2 ∧ slot.2 < stop then [] else [slot.1]

/-- Slots with texts in front of those that they belong to, and without those from `start` up to
`stop`. -/
def fillSlots (texts : List (Int × List Slot)) (start stop : Int) (slots : List Slot) :
    List Slot :=
  slots.zipIdx.flatMap (fillSlot texts start stop)

/-- The slots that texts belong to exist, and so do those from `start` up to `stop`. Of the latter
only the first one has texts, and the slot right behind them has none either. -/
structure HasRoom (texts : List (Int × List Slot)) (start stop : Int) (slots : List Slot) :
    Prop where
  start_nonneg : 0 ≤ start
  start_le_stop : start ≤ stop
  stop_le : stop ≤ slots.length
  exists_slot : ∀ x ∈ texts, 0 ≤ x.1 ∧ x.1 < slots.length
  apart : ∀ x ∈ texts, ¬ (start < x.1 ∧ x.1 ≤ stop)

section Fill

variable {texts : List (Int × List Slot)} {start stop : Int} {k : Nat}

/-- Outside of the range no slot is taken out. -/
theorem flatMap_fillSlot_of_outside {slots : List Slot}
    (h : ∀ i : Nat, k ≤ i → i < k + slots.length → ¬ (start ≤ i ∧ i < stop)) :
    (slots.zipIdx k).flatMap (fillSlot texts start stop) = weave texts k slots := by
  induction slots generalizing k with
  | nil => rfl
  | cons slot slots ih =>
    rw [List.length_cons] at h
    rw [List.zipIdx_cons, List.flatMap_cons, weave, ih fun i hi hlt => h i (by omega) (by omega),
      fillSlot, if_neg (h k (Nat.le_refl k) (by omega)), List.append_assoc, List.singleton_append,
      Int.natCast_add, Int.natCast_one]

/-- Within the range nothing is left where no texts go. -/
theorem flatMap_fillSlot_of_inside {slots : List Slot} (hstart : start ≤ k)
    (hstop : k + slots.length ≤ stop) (h : ∀ x ∈ texts, ¬ ((k : Int) ≤ x.1 ∧ x.1 < stop)) :
    (slots.zipIdx k).flatMap (fillSlot texts start stop) = [] := by
  induction slots generalizing k with
  | nil => rfl
  | cons slot slots ih =>
    rw [List.length_cons] at hstop
    have hnone : insertedAt texts k = [] := by
      refine insertedAt_eq_nil fun x hx => ?_
      have := h x hx
      omega
    have hrest : ∀ x ∈ texts, ¬ (((k + 1 : Nat) : Int) ≤ x.1 ∧ x.1 < stop) := by
      intro x hx
      have := h x hx
      omega
    rw [List.zipIdx_cons, List.flatMap_cons, ih (by omega) (by omega) hrest, fillSlot, hnone,
      if_pos (by omega)]
    rfl

/-- With the range taken out, the texts of its first slot stand in front of what follows it. -/
theorem fillSlots_append (a m b : List Slot) (x : Slot)
    (h : ∀ y ∈ texts, ¬ ((a.length : Int) < y.1 ∧ y.1 ≤ a.length + (x :: m).length)) :
    fillSlots texts a.length (a.length + (x :: m).length) (a ++ ((x :: m) ++ b)) =
      (weave texts 0 a ++ insertedAt texts a.length) ++
        weave texts (a.length + (x :: m).length) b := by
  have hlength : ((x :: m).length : Int) = m.length + 1 := by
    rw [List.length_cons, Int.natCast_add, Int.natCast_one]
  have hfront : (a.zipIdx 0).flatMap (fillSlot texts a.length (a.length + (x :: m).length)) =
      weave texts 0 a :=
    flatMap_fillSlot_of_outside fun i _ hi => by omega
  have hrange : ((x :: m).zipIdx a.length).flatMap
      (fillSlot texts a.length (a.length + (x :: m).length)) = insertedAt texts a.length := by
    have hrest : (m.zipIdx (a.length + 1)).flatMap
        (fillSlot texts a.length (a.length + (x :: m).length)) = [] :=
      flatMap_fillSlot_of_inside (by omega) (by omega) fun y hy => by
        have := h y hy
        omega
    rw [List.zipIdx_cons, List.flatMap_cons, hrest, fillSlot, if_pos (by omega), List.append_nil,
      List.append_nil]
  have hback : (b.zipIdx (a.length + (x :: m).length)).flatMap
      (fillSlot texts a.length (a.length + (x :: m).length)) =
      weave texts (a.length + (x :: m).length) b :=
    flatMap_fillSlot_of_outside fun i hi _ => by omega
  rw [fillSlots, List.zipIdx_append, List.zipIdx_append, List.flatMap_append, List.flatMap_append,
    Nat.zero_add, hfront, hrange, hback, List.append_assoc]

end Fill

/-! ## Taking out the slots of the marker -/

theorem removeSlots_self {slots : List Slot} {i : Int} (h0 : 0 ≤ i) (h : i ≤ slots.length) :
    removeSlots slots i i = some slots := by
  rw [removeSlots, if_pos ⟨h0, Int.le_refl i, h⟩, List.take_append_drop]

/-- The moved place of a slot is a place among all slots and texts. -/
theorem Insertions.Tracks.map_le {done : Insertions} {texts : List (Int × List Slot)}
    (hd : done.Tracks texts) {a b : List Slot} (h : ∀ x ∈ texts, x.1 < (a ++ b).length) :
    done.map a.length ≤ (weave texts 0 (a ++ b)).length := by
  rw [hd a]
  cases b with
  | nil =>
    rw [List.append_nil] at h
    have hnone : insertedAt texts a.length = [] :=
      insertedAt_eq_nil fun x hx => Int.ne_of_lt (h x hx)
    exact Int.le_of_eq (by rw [hnone, List.append_nil, List.append_nil])
  | cons y b =>
    rw [weave_split, Int.zero_add]
    exact Int.ofNat_le.2 (List.prefix_append _ _).length_le

/-- The slots between the moved ends of a range are those of the range. -/
theorem removeSlots_weave {done : Insertions} {texts : List (Int × List Slot)} {start stop : Int}
    {slots : List Slot} (hd : done.Tracks texts) (hroom : HasRoom texts start stop slots) :
    removeSlots (weave texts 0 slots) (done.map start) (done.map stop) =
      some (fillSlots texts start stop slots) := by
  obtain ⟨h0, hle, hstop, hslot, hapart⟩ := hroom
  obtain ⟨a, m, b, rfl, ha, hm⟩ :=
    exists_eq_append_append (show start.toNat + (stop - start).toNat ≤ slots.length by omega)
  obtain rfl : start = a.length := by omega
  obtain rfl : stop = a.length + m.length := by omega
  cases m with
  | nil =>
    -- nothing is taken out between two ends that are the same
    have hfill : fillSlots texts a.length (a.length + ([] : List Slot).length) (a ++ ([] ++ b)) =
        weave texts 0 (a ++ ([] ++ b)) :=
      flatMap_fillSlot_of_outside fun i _ _ hi => by
        rw [List.length_nil] at hi
        omega
    rw [hfill, List.length_nil, Int.natCast_zero, Int.add_zero]
    refine removeSlots_self ?_ (hd.map_le fun x hx => (hslot x hx).2)
    rw [hd a]
    exact Int.natCast_nonneg _
  | cons x m =>
    have hlength : ((x :: m).length : Int) = m.length + 1 := by
      rw [List.length_cons, Int.natCast_add, Int.natCast_one]
    -- no texts go in front of the slots of the range behind the first one
    have hmiddle : weave texts (a.length + 1) m = m := by
      refine weave_eq_self fun y hy => ?_
      have := hapart y hy
      omega
    have hbehind : insertedAt texts (a.length + (x :: m).length) = [] := by
      refine insertedAt_eq_nil fun y hy => ?_
      have := hapart y hy
      omega
    have hweave : ∀ r, weave texts 0 (a ++ ((x :: m) ++ r)) =
        (weave texts 0 a ++ insertedAt texts a.length) ++
          ((x :: m) ++ weave texts (a.length + (x :: m).length) r) := by
      intro r
      rw [List.cons_append, weave_split, Int.zero_add, weave_append, hmiddle, hlength,
        List.cons_append, Int.add_assoc, Int.add_comm 1]
    have hend : done.map (a.length + (x :: m).length) =
        (weave texts 0 a ++ insertedAt texts a.length).length + (x :: m).length := by
      have hlast := hd (a ++ (x :: m))
      have hweave' := hweave []
      rw [weave, List.append_nil] at hweave'
      rw [List.length_append, Int.natCast_add, hbehind, List.append_nil, hweave',
        List.length_append, Int.natCast_add] at hlast
      exact hlast
    rw [hd a, hend, hweave, fillSlots_append a m b x hapart]
    exact removeSlots_length _ _ _

/-! ## Styles -/

/-- The range whose looks an edit sets: the style of its text, or how its paragraphs are aligned. -/
def Edit.styled? : Edit → Option (Json × Json)
  | .setTextStyle start stop _ _ => some (start, stop)
  | .setAlignment start stop _ => some (start, stop)
  | _ => none

/-- After some edits, a range is that of the text that was inserted last. Since then nothing but
looks were set. -/
def LastInserted (slots : List Slot) (before : List Edit) (range : Json × Json) : Prop :=
  ∃ (earlier styles : List Edit) (t : Text) (l r : List Slot),
    before = earlier ++ .insertText (.int l.length) (.text t) :: styles ∧
    (∀ e ∈ styles, e.styled?.isSome = true) ∧
    executeEdits slots earlier = some (l ++ r) ∧
    executeEdits slots before = some (l ++ (textSlots t ++ r)) ∧
    range = (.int l.length, .int (l.length + t.units))

/-- Wherever some edits set the looks of a range, it is that of the text that was inserted last. -/
def StylesInserted (slots : List Slot) (edits : List Edit) : Prop :=
  ∀ before e after range, edits = before ++ e :: after → e.styled? = some range →
    LastInserted slots before range

section Styles

variable {slots slots' : List Slot} {a b : List Edit} {range : Json × Json} {e : Edit}

theorem onSlots_of_styled (h : e.styled?.isSome = true) (slots : List Slot) :
    e.onSlots slots = some slots := by
  cases e with
  | setTextStyle => rfl
  | setAlignment => rfl
  | _ => exact absurd h Bool.false_ne_true

theorem stylesInserted_of_none (h : ∀ e ∈ a, e.styled? = none) : StylesInserted slots a := by
  rintro before e after range rfl he
  rw [h e (by simp)] at he
  exact absurd he (by simp)

theorem LastInserted.of_append (hexec : executeEdits slots a = some slots')
    (h : LastInserted slots' b range) : LastInserted slots (a ++ b) range := by
  obtain ⟨earlier, styles, t, l, r, rfl, hstyles, hearlier, hbefore, rfl⟩ := h
  refine ⟨a ++ earlier, styles, t, l, r, (List.append_assoc _ _ _).symm, hstyles, ?_, ?_, rfl⟩
  · rw [executeEdits_append, hexec, Option.bind_some, hearlier]
  · rw [executeEdits_append, hexec, Option.bind_some, hbefore]

theorem StylesInserted.append (ha : StylesInserted slots a)
    (hexec : executeEdits slots a = some slots') (hb : StylesInserted slots' b) :
    StylesInserted slots (a ++ b) := by
  intro before e after range heq he
  rcases List.append_eq_append_iff.1 heq with ⟨more, rfl, hmore⟩ | ⟨more, rfl, hmore⟩
  · exact .of_append hexec (hb _ _ _ _ hmore he)
  · cases more with
    | nil =>
      -- the edit is the first one of the second part
      rw [List.nil_append] at hmore
      rw [List.append_nil] at ha hexec
      have h := hb [] e after range hmore.symm he
      have h' := LastInserted.of_append hexec h
      rwa [List.append_nil] at h'
    | cons e' more =>
      obtain ⟨rfl, -⟩ := List.cons.inj hmore
      exact ha before e more range rfl he

/-- Slots between which new ones can be inserted at a position are those before and those from it
on. -/
theorem exists_of_insertSlots {new : List Slot} {i : Int}
    (h : insertSlots slots new i = some slots') :
    ∃ l r, slots = l ++ r ∧ i = l.length ∧ slots' = l ++ (new ++ r) := by
  rw [insertSlots] at h
  split at h
  · next hi =>
    refine ⟨slots.take i.toNat, slots.drop i.toNat, (List.take_append_drop _ _).symm, ?_, ?_⟩
    · rw [List.length_take]
      omega
    · rw [← List.append_assoc]
      exact (Option.some.inj h).symm
  · exact absurd h (by simp)

/-- The edits for a cell insert its text and then set the looks of just that text. -/
theorem cellEdits_eq_cons (c : CellPlan) (start : Int) (t : Text) :
    ∃ styles, c.edits start t = .insertText (.int start) (.text t) :: styles ∧
      ∀ e ∈ styles, e.styled? = some (.int start, .int (start + t.units)) := by
  refine ⟨_, rfl, fun e he => ?_⟩
  rcases List.mem_cons.1 he with rfl | he
  · rfl
  · split at he
    · obtain rfl := List.mem_singleton.1 he
      rfl
    · exact absurd he List.not_mem_nil

theorem stylesInserted_cellEdits (c : CellPlan) {start : Int} {t : Text}
    (h : insertSlots slots (textSlots t) start = some slots') :
    StylesInserted slots (c.edits start t) := by
  obtain ⟨l, r, rfl, rfl, rfl⟩ := exists_of_insertSlots h
  obtain ⟨styles, hedits, hstyles⟩ := cellEdits_eq_cons c l.length t
  intro before e after range heq he
  rw [hedits] at heq
  cases before with
  | nil =>
    -- the first edit is the insertion, which sets no looks
    obtain ⟨rfl, -⟩ := List.cons.inj heq
    exact absurd he (by simp [Edit.styled?])
  | cons first before =>
    obtain ⟨rfl, rfl⟩ := List.cons.inj heq
    rw [hstyles e (by simp)] at he
    have hbefore : ∀ e ∈ before, e.styled?.isSome = true := fun e he => by
      rw [hstyles e (List.mem_append_left _ he)]
      rfl
    refine ⟨[], before, t, l, r, rfl, hbefore, rfl, ?_, (Option.some.inj he).symm⟩
    rw [executeEdits_cons]
    show (insertSlots (l ++ r) (textSlots t) l.length).bind _ = _
    rw [h, Option.bind_some]
    exact executeEdits_of_still fun e he => onSlots_of_styled (hbefore e he) _

/-- Filling cells sets the looks of the text of each cell right behind its insertion. -/
theorem stylesInserted_fillCells {table : Table} {base : List Slot} {cells : List CellPlan}
    (htexts : ∀ x ∈ cellTexts table cells, 0 ≤ x.1 ∧ x.1 < base.length) {done all : Insertions}
    {ins : List (Int × List Slot)} {edits : List Edit}
    (h : fillCells table done cells = .ok (edits, all)) (hd : done.Tracks ins) :
    StylesInserted (weave ins 0 base) edits := by
  induction cells generalizing done ins edits with
  | nil =>
    obtain ⟨rfl, rfl⟩ := Prod.mk.inj (Except.ok.inj h)
    exact stylesInserted_of_none (by simp)
  | cons c rest ih =>
    rcases fillCells_cons h with ⟨hnone, hrest⟩ | ⟨index, t, edits', -, hsome, hrest, rfl⟩
    · rw [cellTexts, List.filterMap_cons_none hnone] at htexts
      exact ih htexts hrest hd
    · rw [cellTexts, List.filterMap_cons_some hsome] at htexts
      obtain ⟨⟨hpos, hlt⟩, htexts⟩ := List.forall_mem_cons.1 htexts
      have hinsert := insertSlots_weave hd hpos hlt (textSlots t)
      have hd' := hd.record hpos (textSlots t)
      rw [length_textSlots] at hd'
      refine (stylesInserted_cellEdits c hinsert).append ?_ (ih htexts hrest hd')
      rw [executeEdits_cellEdits, hinsert]

end Styles

/-! ## Filling a table -/

section Table

variable {table : Table} {layout : TableLayout} {start stop : Int} {edits : List Edit}
  {slots : List Slot}

theorem executeEdits_of_planTableFill
    (h : planTableFill table layout (some (.int start, .int stop)) = .ok edits)
    (hroom : HasRoom (cellTexts table layout.cells) start stop slots) :
    executeEdits slots edits =
      some (fillSlots (cellTexts table layout.cells) start stop slots) := by
  obtain ⟨fill, before, done, hfill, rfl, -, hbefore⟩ := planTableFill_split h
  obtain ⟨hexec, htracks⟩ :=
    executeEdits_fillCells hroom.exists_slot hfill Insertions.tracks_nil
  rw [weave_eq_self (by simp), List.nil_append] at hexec
  rw [List.nil_append] at htracks
  rw [executeEdits_append, hbefore, hexec, Option.bind_some]
  refine (executeEdits_cons _ _ _).trans ((Option.bind_fun_some _).trans ?_)
  exact removeSlots_weave htracks hroom

theorem stylesInserted_planTableFill
    (h : planTableFill table layout (some (.int start, .int stop)) = .ok edits)
    (hroom : HasRoom (cellTexts table layout.cells) start stop slots) :
    StylesInserted slots edits := by
  obtain ⟨title, fill, done, hfill, rfl⟩ := planTableFill_inv h
  obtain ⟨hexec, -⟩ := executeEdits_fillCells hroom.exists_slot hfill Insertions.tracks_nil
  have hcells := stylesInserted_fillCells hroom.exists_slot hfill Insertions.tracks_nil
  rw [weave_eq_self (by simp)] at hexec hcells
  -- the edits around those for the cells set no looks of text
  have htitle : ∀ e ∈ titleEdits table title, e.styled? = none := by
    intro e he
    cases title with
    | true =>
      obtain rfl := List.mem_singleton.1 he
      rfl
    | false => exact absurd he List.not_mem_nil
  have hrest : ∀ e ∈ [.removeBorders table.start layout.rowCount layout.columnCount] ++
      (widthEdits table layout ++ [.deleteRange (.int (done.map start)) (.int (done.map stop))]),
      e.styled? = none := by
    intro e he
    simp only [List.mem_append, List.mem_singleton] at he
    rcases he with rfl | he | rfl
    · rfl
    · obtain ⟨w, -, rfl⟩ := List.mem_map.1 he
      rfl
    · rfl
  simp only [List.append_assoc]
  refine (stylesInserted_of_none htitle).append ?_
    (hcells.append hexec (stylesInserted_of_none hrest))
  cases title <;> rfl

end Table

/-- **Filling a table one text after another is filling it at once**: carried out in order on slots
that have room for it, the edits put the text of each cell that is not empty in front of the slot
that the table takes it at, texts of one place in the order of the cells, take out the slots of the
marker and leave all other slots as they are. Whenever one of the edits sets the looks of a range,
the range holds the text that was inserted just before, and nothing else. -/
theorem executeEdits_planTableFill {table : Table} {layout : TableLayout} {start stop : Int}
    {edits : List Edit} {slots : List Slot}
    (h : planTableFill table layout (some (.int start, .int stop)) = .ok edits)
    (hroom : HasRoom (cellTexts table layout.cells) start stop slots) :
    executeEdits slots edits = some (fillSlots (cellTexts table layout.cells) start stop slots) ∧
      StylesInserted slots edits :=
  ⟨executeEdits_of_planTableFill h hroom, stylesInserted_planTableFill h hroom⟩

/-- A table of one row whose second cell stands in front of its first one. -/
def crossedTable : Table :=
  { start := .int 2
    stop := .int 9
    rows := [{ start := .int 3, stop := .int 8, cells := [
      TableGeometry.emptyCell 6, TableGeometry.emptyCell 3] }] }

/-- A layout with two texts for the first cell and one for the second. -/
def crossedLayout : TableLayout :=
  { rowCount := .int 1
    columnCount := .int 2
    cells := [
      { row := .int 0, column := .int 0, text := .text ['a', 'b'], bold := .bool true
        fontSize := .int 12 },
      { row := .int 0, column := .int 1, text := .text ['😀'], bold := .bool false
        fontSize := .int 12, alignment := .str "CENTER" },
      { row := .int 0, column := .int 0, text := .text ['c'], bold := .null
        fontSize := .null }]
    columnWidths := [] }

theorem executeEdits_crossedTable :
    ∃ edits, planTableFill crossedTable crossedLayout (some (.int 5, .int 7)) = .ok edits ∧
      HasRoom (cellTexts crossedTable crossedLayout.cells) 5 7 ((List.range 10).map .native) ∧
      executeEdits ((List.range 10).map .native) edits =
        some ((List.range 5).map .native ++ textSlots ['😀'] ++ [.native 7] ++
          textSlots ['a', 'b'] ++ textSlots ['c'] ++ [.native 8, .native 9]) ∧
      StylesInserted ((List.range 10).map .native) edits := by
  obtain ⟨edits, hplan⟩ : ∃ edits,
      planTableFill crossedTable crossedLayout (some (.int 5, .int 7)) = .ok edits := ⟨_, rfl⟩
  have htexts : cellTexts crossedTable crossedLayout.cells =
      [(8, textSlots ['a', 'b']), (5, textSlots ['😀']), (8, textSlots ['c'])] := rfl
  have hroom : HasRoom (cellTexts crossedTable crossedLayout.cells) 5 7
      ((List.range 10).map .native) := by
    rw [htexts]
    exact ⟨by decide, by decide, by decide, by decide, by decide⟩
  obtain ⟨hexec, hstyles⟩ := executeEdits_planTableFill hplan hroom
  exact ⟨edits, hplan, hroom, hexec.trans (by rw [htexts]; rfl), hstyles⟩

end DocTemplate
