import DocTemplate.Proofs.Document.Places

/-!
# How spans of a text map to a document

If the runs of a document stand apart, its characters keep their order and there is room between
two of them for all that stands between them in the text. A span of the text is therefore mapped to
a range that is at least as long as the span, in code units, and longer exactly where structure
interrupts the span. Spans behind each other are mapped to ranges behind each other, and a span is
refused exactly if it leaves the text (`mapsSpans_of_runsApart`).
-/

namespace DocTemplate

/-- How the spans of a text map to positions of its document. -/
structure LinearText.MapsSpans (t : LinearText) : Prop where
  /-- A character stands behind all characters before it. -/
  anchor_lt : ∀ i j : Nat, i < j → j < t.text.length → ∃ a a', t.anchor (.int i) = .ok a ∧
    t.anchor (.int j) = .ok a' ∧ a.index < a'.index
  /-- A span has a range, which is never too short, and exactly as long as the span if and only if
  the characters of the span follow each other without a break. -/
  range_long : ∀ start stop : Nat, start < stop → stop ≤ t.text.length →
    ∃ a z, t.range (.int start) (.int stop) = .ok (a, z) ∧
      a.index + (t.text.slice start stop).units ≤ z.index ∧
      (a.index + (t.text.slice start stop).units = z.index ↔ t.Consecutive start stop)
  /-- The range of a span ends before the range of a span behind it. -/
  range_le : ∀ (start stop start' stop' : Nat) (a z a' z' : Anchor), start ≤ stop →
    stop ≤ start' → t.range (.int start) (.int stop) = .ok (a, z) →
    t.range (.int start') (.int stop') = .ok (a', z') → z.index ≤ a'.index
  /-- A span has no range if and only if it leaves the text. -/
  stale_iff : ∀ start stop : Int, start < stop →
    ((∃ offset, t.range (.int start) (.int stop) =
        .error (.staleSnapshot t.revision t.revision offset)) ↔
      start < 0 ∨ t.text.length < stop)

variable {b : Body} {revision : Json}

theorem anchor_linear_of_outside (revision : Json) {i : Int}
    (h : i < 0 ∨ (b.places.length : Int) ≤ i) :
    (b.linear revision).anchor (.int i) = .error (.staleSnapshot revision revision (.int i)) := by
  have hnone : (b.linear revision).origin? i = none := by
    unfold LinearText.origin?
    split
    · next hi =>
      rw [Bool.and_eq_true, decide_eq_true_eq] at hi
      rw [List.getElem?_eq_none_iff, length_origins, length_text]
      omega
    · rfl
  rw [LinearText.anchor, Number.value_int, hnone]
  rfl

theorem anchor_linear_eq_ok {i : Nat} {a : Anchor}
    (h : (b.linear revision).anchor (.int i) = .ok a) :
    ∃ hi : i < b.places.length, a.index = b.places[i].2 := by
  have hi : i < b.places.length := by
    by_contra hout
    rw [anchor_linear_of_outside revision (.inr (by omega))] at h
    exact absurd h (by simp)
  rw [anchor_linear revision hi] at h
  exact ⟨hi, by rw [← Except.ok.inj h]⟩

theorem range_linear_of_outside (revision : Json) {start stop : Int} (hlt : start < stop)
    (h : start < 0 ∨ (b.places.length : Int) < stop) :
    ∃ offset, (b.linear revision).range (.int start) (.int stop) =
      .error (.staleSnapshot revision revision offset) := by
  rw [range_of_lt _ hlt]
  by_cases hstart : start < 0 ∨ (b.places.length : Int) ≤ start
  · exact ⟨.int start, by rw [anchor_linear_of_outside revision hstart]; rfl⟩
  · obtain ⟨i, rfl⟩ : ∃ i : Nat, start = i := ⟨start.toNat, by omega⟩
    have hfirst := anchor_linear revision (show i < b.places.length by omega)
    have hlast := anchor_linear_of_outside (b := b) revision (i := stop - 1) (.inr (by omega))
    exact ⟨.int (stop - 1), by rw [hfirst, hlast]; rfl⟩

theorem range_of_le (t : LinearText) {start stop : Int} (h : stop ≤ start) :
    t.range (.int start) (.int stop) = (fun a => (a, a)) <$> t.anchor (.int start) := by
  simp only [LinearText.range, Number.value_int, h, if_true]
  rfl

theorem anchor_of_range {t : LinearText} {start stop : Int} {a z : Anchor}
    (h : t.range (.int start) (.int stop) = .ok (a, z)) : t.anchor (.int start) = .ok a := by
  rcases Int.lt_or_le start stop with hlt | hle
  · rw [range_of_lt t hlt] at h
    simp only [bind_eq_ok_iff, pure_eq_ok_iff, Prod.mk.injEq] at h
    obtain ⟨first, hfirst, -, -, rfl, -⟩ := h
    exact hfirst
  · rw [range_of_le t hle] at h
    obtain ⟨first, hfirst, heq⟩ := map_eq_ok_iff.1 h
    rw [hfirst, (Prod.mk.inj heq).1]

/-- The range of a stretch ends no later than any character behind the stretch stands. -/
theorem stop_le_place (hb : b.RunsApart) {start stop j : Nat} {a z : Anchor} (hle : start ≤ stop)
    (hj : stop ≤ j) (hlt : j < b.places.length)
    (h : (b.linear revision).range (.int start) (.int stop) = .ok (a, z)) :
    z.index ≤ b.places[j].2 := by
  rcases Nat.lt_or_eq_of_le hle with hstop | rfl
  · obtain ⟨last, rfl⟩ := Nat.exists_eq_add_one_of_ne_zero (Nat.ne_zero_of_lt hstop)
    rw [range_linear revision (Nat.le_of_lt_succ hstop) (show last < _ by omega)] at h
    rw [← (Prod.mk.inj (Except.ok.inj h)).2]
    exact place_add_charUnits_le hb (by omega) hlt
  · rw [range_of_le _ (Int.le_refl _), anchor_linear revision (by omega)] at h
    rw [← (Prod.mk.inj (Except.ok.inj h)).2]
    exact place_le hb hj hlt

/-- **Spans of the text of a document map to ranges in order, and never to too short ones**,
wherever the runs of the document stand, as long as they stand apart. -/
theorem mapsSpans_of_runsApart (hb : b.RunsApart) (revision : Json) :
    (b.linear revision).MapsSpans where
  anchor_lt := by
    intro i j hlt hj
    rw [length_text] at hj
    exact ⟨_, _, anchor_linear revision (by omega), anchor_linear revision hj, place_lt hb hlt hj⟩
  range_long := by
    intro start stop hlt hstop
    rw [length_text] at hstop
    obtain ⟨last, rfl⟩ := Nat.exists_eq_add_one_of_ne_zero (Nat.ne_zero_of_lt hlt)
    have hle := Nat.le_of_lt_succ hlt
    exact ⟨_, _, range_linear revision hle hstop, add_units_le_place hb revision hle hstop,
      consecutive_of_add_units_eq hb hle hstop, place_add_units hle hstop⟩
  range_le := by
    intro start stop start' stop' a z a' z' hle hle' h h'
    obtain ⟨hlt, hindex⟩ := anchor_linear_eq_ok (anchor_of_range h')
    rw [hindex]
    exact stop_le_place hb hle hle' hlt h
  stale_iff := by
    intro start stop hlt
    rw [length_text]
    constructor
    · rintro ⟨offset, h⟩
      by_contra hinside
      obtain ⟨first, rfl⟩ : ∃ first : Nat, start = first := ⟨start.toNat, by omega⟩
      obtain ⟨last, rfl⟩ : ∃ last : Nat, stop = (last + 1 : Nat) := ⟨(stop - 1).toNat, by omega⟩
      rw [range_linear revision (show first ≤ last by omega) (by omega)] at h
      exact absurd h (by simp)
    · exact range_linear_of_outside revision hlt

/-- A body with a character of two code units, whose second paragraph stands in a table. -/
def gappedBody : Body :=
  let line (start : Int) (t : Text) : Block :=
    .paragraph ⟨.int start, .null, [.run ⟨.int start, .null, t, .obj []⟩], .str "NORMAL_TEXT"⟩
  ⟨[line 1 ['a', '😀', '\n'],
    .table ⟨.int 5, .null, [⟨.null, .null, [⟨.null, .null, [line 8 ['b', '\n']], .null, .null⟩]⟩]⟩]⟩

theorem mapsSpans_of_runsApart_gapped :
    gappedBody.RunsApart ∧ (gappedBody.linear .null).MapsSpans ∧
      (gappedBody.linear .null).range (.int 1) (.int 4) = .ok (⟨2, .null⟩, ⟨9, .null⟩) := by
  have happart : gappedBody.RunsApart := by
    unfold Body.RunsApart
    decide
  exact ⟨happart, mapsSpans_of_runsApart happart .null, rfl⟩

end DocTemplate
