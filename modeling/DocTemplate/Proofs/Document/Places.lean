import DocTemplate.Document.Anchor
import DocTemplate.Proofs.Failure
import Mathlib.Data.List.Basic
import Mathlib.Data.Nat.Init

/-!
# Where characters stand

The native positions of the characters of a document. If the runs of a body stand one behind the
other, so do its characters (`pairwise_places`), and a stretch of the text takes up at least as many
positions as it has code units (`add_units_le_place`). It takes up exactly as many if and only if
its characters follow each other without a break (`place_add_units`, `consecutive_of_add_units_eq`),
and then its range has the length of the stretch (`range_of_consecutive`).
-/

namespace DocTemplate

/-- The characters of a text that starts at a position, each with its own position. -/
def placesFrom (index : Int) : Text → List (Char × Int)
  | [] => []
  | c :: rest => (c, index) :: placesFrom (index + charUnits c) rest

/-- The characters of a body in reading order, each with its position. -/
def Body.places (b : Body) : List (Char × Int) :=
  b.runs.flatMap fun r => placesFrom r.run.start.value r.run.content

/-- The runs of a body stand one behind the other, from position zero on. -/
structure Body.Ordered (b : Body) : Prop where
  nonneg : ∀ r ∈ b.runs, 0 ≤ r.run.start.value
  increasing : b.runs.Pairwise fun r r' : LocatedRun =>
    r.run.start.value + r.run.content.units ≤ r'.run.start.value

/-- The runs of a body that hold any text stand one behind the other, wherever the first of them
stands. -/
def Body.RunsApart (b : Body) : Prop :=
  b.runs.Pairwise fun r r' : LocatedRun => r.run.content ≠ [] → r'.run.content ≠ [] →
    r.run.start.value + r.run.content.units ≤ r'.run.start.value

theorem Body.Ordered.runsApart {b : Body} (hb : b.Ordered) : b.RunsApart :=
  hb.increasing.imp fun h _ _ => h

/-- The characters of a text from `start` up to `stop` follow each other in the document without a
break. -/
def LinearText.Consecutive (t : LinearText) (start stop : Nat) : Prop :=
  ∀ i o o' c, start ≤ i → i + 1 < stop → t.origins[i]? = some o → t.origins[i + 1]? = some o' →
    t.text[i]? = some c → o'.index = o.index + charUnits c

/-! ## The places of a run -/

theorem map_fst_placesFrom (index : Int) (t : Text) : (placesFrom index t).map Prod.fst = t := by
  induction t generalizing index with
  | nil => rfl
  | cons c t ih => rw [placesFrom, List.map_cons, ih]

theorem map_snd_placesFrom (runStart : Number) (cell : Option CellPosition) (index : Int)
    (t : Text) :
    (placesFrom index t).map Prod.snd = (originsFrom runStart cell index t).map Origin.index := by
  induction t generalizing index with
  | nil => rfl
  | cons c t ih => rw [placesFrom, originsFrom, List.map_cons, List.map_cons, ih]

theorem bounds_of_mem_placesFrom {index : Int} {t : Text} {p : Char × Int}
    (h : p ∈ placesFrom index t) : index ≤ p.2 ∧ p.2 + charUnits p.1 ≤ index + t.units := by
  induction t generalizing index with
  | nil => exact absurd h List.not_mem_nil
  | cons c t ih =>
    rw [Text.units_cons]
    rcases List.mem_cons.1 h with rfl | h
    · refine ⟨Int.le_refl _, ?_⟩
      show index + charUnits c ≤ index + (charUnits c + Text.units t : Nat)
      omega
    · have := ih h
      omega

theorem ne_nil_of_mem_placesFrom {index : Int} {t : Text} {p : Char × Int}
    (h : p ∈ placesFrom index t) : t ≠ [] := by
  rintro rfl
  exact absurd h List.not_mem_nil

theorem pairwise_placesFrom (index : Int) (t : Text) :
    (placesFrom index t).Pairwise fun a b : Char × Int => a.2 + charUnits a.1 ≤ b.2 := by
  induction t generalizing index with
  | nil => exact .nil
  | cons c t ih => exact .cons (fun b hb => (bounds_of_mem_placesFrom hb).1) (ih _)

/-! ## The places of a body -/

section Body

variable {b : Body} {revision : Json}

theorem text_linear : (b.linear revision).text = b.places.map Prod.fst := by
  rw [Body.places, List.map_flatMap]
  exact List.flatMap_congr fun r _ => (map_fst_placesFrom _ _).symm

theorem index_linear (b : Body) (revision : Json) :
    (b.linear revision).origins.map Origin.index = b.places.map Prod.snd := by
  rw [Body.places, List.map_flatMap]
  show (b.runs.flatMap LocatedRun.origins).map Origin.index = _
  rw [List.map_flatMap]
  exact List.flatMap_congr fun r _ => (map_snd_placesFrom _ _ _ _).symm

theorem bounds_of_mem_places (hb : b.Ordered) {p : Char × Int} (h : p ∈ b.places) :
    0 ≤ p.2 ∧ ∃ r ∈ b.runs, p.2 + charUnits p.1 ≤ r.run.start.value + r.run.content.units := by
  obtain ⟨r, hr, hp⟩ := List.mem_flatMap.1 h
  have := hb.nonneg r hr
  have := bounds_of_mem_placesFrom hp
  exact ⟨by omega, r, hr, by omega⟩

theorem pairwise_places (hb : b.RunsApart) :
    b.places.Pairwise fun p p' : Char × Int => p.2 + charUnits p.1 ≤ p'.2 := by
  refine List.pairwise_flatMap.2 ⟨fun r _ => pairwise_placesFrom _ _, ?_⟩
  refine hb.imp fun {r r'} h p hp p' hp' => ?_
  have := h (ne_nil_of_mem_placesFrom hp) (ne_nil_of_mem_placesFrom hp')
  have := bounds_of_mem_placesFrom hp
  have := bounds_of_mem_placesFrom hp'
  omega

theorem length_text : (b.linear revision).text.length = b.places.length := by
  rw [text_linear, List.length_map]

theorem getElem?_text {i : Nat} (hi : i < b.places.length) :
    (b.linear revision).text[i]? = some b.places[i].1 := by
  rw [text_linear, List.getElem?_map, List.getElem?_eq_getElem hi]
  rfl

theorem origin?_linear (revision : Json) {i : Nat} (hi : i < b.places.length) :
    ∃ o, (b.linear revision).origin? i = some o ∧ (b.linear revision).origins[i]? = some o ∧
      o.index = b.places[i].2 := by
  have hlength : (b.linear revision).origins.length = b.places.length := by
    rw [length_origins, length_text]
  have ho : i < (b.linear revision).origins.length := by omega
  refine ⟨(b.linear revision).origins[i], ?_, List.getElem?_eq_getElem ho, ?_⟩
  · have htext : (b.linear revision).text ≠ [] := by
      rw [← List.length_pos_iff, length_text]
      omega
    rw [LinearText.origin?, if_pos, Int.toNat_natCast, List.getElem?_eq_getElem ho]
    simp [LinearText.hasOrigins, length_origins, htext]
  · have := congrArg (·[i]?) (index_linear b revision)
    simpa [List.getElem?_eq_getElem ho, List.getElem?_eq_getElem hi] using this

theorem index_succ_originsFrom {runStart : Number} {cell : Option CellPosition} {index : Int}
    {t : Text} {i : Nat} {o o' : Origin} {c : Char}
    (ho : (originsFrom runStart cell index t)[i]? = some o)
    (ho' : (originsFrom runStart cell index t)[i + 1]? = some o') (hc : t[i]? = some c) :
    o'.index = o.index + charUnits c := by
  induction t generalizing index i with
  | nil => exact absurd hc (by simp)
  | cons x t ih =>
    cases i with
    | zero =>
      obtain rfl : x = c := by simpa using hc
      cases t with
      | nil => exact absurd ho' (by simp [originsFrom])
      | cons y t =>
        simp only [originsFrom, List.getElem?_cons_zero, List.getElem?_cons_succ,
          Option.some.injEq] at ho ho'
        rw [← ho, ← ho']
    | succ i => exact ih ho ho' hc

/-- The characters of a body with a single run follow each other without a break. -/
theorem consecutive_of_runs_eq {r : LocatedRun} (h : b.runs = [r]) (start stop : Nat) :
    (b.linear revision).Consecutive start stop := by
  intro i o o' c _ _ ho ho' hc
  simp only [Body.linear, h, List.flatMap_cons, List.flatMap_nil, List.append_nil,
    if_true] at ho ho' hc
  exact index_succ_originsFrom ho ho' hc

/-! ## Stretches -/

/-- The code units of a stretch are those of a shorter one and of the character behind it. -/
theorem units_slice_succ {t : Text} {first last : Nat} {c : Char} (hle : first ≤ last)
    (h : t[last]? = some c) :
    (t.slice first (last + 1)).units = (t.slice first last).units + charUnits c := by
  rw [Text.slice, Text.slice, Nat.succ_sub hle, List.take_add_one, List.getElem?_drop,
    Nat.add_sub_cancel' hle, h, Text.units_append]
  rfl

theorem units_slice_self {t : Text} {i : Nat} {c : Char} (h : t[i]? = some c) :
    (t.slice i (i + 1)).units = charUnits c := by
  rw [units_slice_succ (Nat.le_refl i) h, Text.slice, Nat.sub_self, List.take_zero, Text.units_nil,
    Nat.zero_add]

theorem place_add_charUnits_le (hb : b.RunsApart) {i j : Nat} (hlt : i < j)
    (hj : j < b.places.length) :
    b.places[i].2 + charUnits b.places[i].1 ≤ b.places[j].2 :=
  List.pairwise_iff_getElem.1 (pairwise_places hb) i j (by omega) hj hlt

theorem place_lt (hb : b.RunsApart) {i j : Nat} (hlt : i < j) (hj : j < b.places.length) :
    b.places[i].2 < b.places[j].2 := by
  have hle := place_add_charUnits_le hb hlt hj
  have hpos := charUnits_pos b.places[i].1
  omega

theorem place_le (hb : b.RunsApart) {i j : Nat} (hle : i ≤ j) (hj : j < b.places.length) :
    b.places[i].2 ≤ b.places[j].2 := by
  rcases Nat.lt_or_eq_of_le hle with hlt | rfl
  · exact Int.le_of_lt (place_lt hb hlt hj)
  · exact Int.le_refl _

/-- No break in a stretch means that each of its characters but the last one ends where the next
one stands. -/
theorem consecutive_succ_iff {first last : Nat} (hle : first ≤ last)
    (hlast : last + 1 < b.places.length) :
    (b.linear revision).Consecutive first (last + 2) ↔
      (b.linear revision).Consecutive first (last + 1) ∧
        b.places[last + 1].2 = b.places[last].2 + charUnits b.places[last].1 := by
  obtain ⟨o, -, ho, hindex⟩ := origin?_linear revision (show last < b.places.length by omega)
  obtain ⟨o', -, ho', hindex'⟩ := origin?_linear revision hlast
  have hchar : (b.linear revision).text[last]? = some b.places[last].1 := getElem?_text (by omega)
  constructor
  · intro hc
    refine ⟨fun i p p' c hi hlt => hc i p p' c hi (by omega), ?_⟩
    rw [← hindex, ← hindex']
    exact hc last o o' _ hle (by omega) ho ho' hchar
  · rintro ⟨hc, hnext⟩ i p p' c hi hlt hp hp' hp''
    rcases Nat.lt_or_eq_of_le (show i ≤ last by omega) with hbefore | rfl
    · exact hc i p p' c hi (by omega) hp hp' hp''
    · obtain rfl : o = p := Option.some.inj (ho.symm.trans hp)
      obtain rfl : o' = p' := Option.some.inj (ho'.symm.trans hp')
      obtain rfl := Option.some.inj (hchar.symm.trans hp'')
      rw [hindex, hindex', hnext]

/-- A stretch without a break ends where its last character ends. -/
theorem place_add_units {first last : Nat} (hle : first ≤ last) (hlast : last < b.places.length)
    (hc : (b.linear revision).Consecutive first (last + 1)) :
    b.places[first].2 + ((b.linear revision).text.slice first (last + 1)).units =
      b.places[last].2 + charUnits b.places[last].1 := by
  induction last, hle using Nat.le_induction with
  | base => rw [units_slice_self (getElem?_text hlast)]
  | succ last hle ih =>
    obtain ⟨hc, hnext⟩ := (consecutive_succ_iff hle hlast).1 hc
    have hprev := ih (by omega) hc
    rw [units_slice_succ (Nat.le_add_right_of_le hle) (getElem?_text hlast), Int.natCast_add,
      ← Int.add_assoc, hprev, hnext]

/-- The code units of a stretch fit between its first character and the end of its last one. -/
theorem add_units_le_place (hb : b.RunsApart) (revision : Json) {first last : Nat}
    (hle : first ≤ last) (hlast : last < b.places.length) :
    b.places[first].2 + ((b.linear revision).text.slice first (last + 1)).units ≤
      b.places[last].2 + charUnits b.places[last].1 := by
  induction last, hle using Nat.le_induction with
  | base => exact Int.le_of_eq (by rw [units_slice_self (getElem?_text hlast)])
  | succ last hle ih =>
    have hprev := ih (by omega)
    have hstep := place_add_charUnits_le hb (Nat.lt_add_one last) hlast
    rw [units_slice_succ (Nat.le_add_right_of_le hle) (getElem?_text hlast)]
    omega

/-- If the code units of a stretch fill it, there is no break in it: every gap between two of its
characters would make it longer. -/
theorem consecutive_of_add_units_eq (hb : b.RunsApart) {first last : Nat} (hle : first ≤ last)
    (hlast : last < b.places.length)
    (heq : b.places[first].2 + ((b.linear revision).text.slice first (last + 1)).units =
      b.places[last].2 + charUnits b.places[last].1) :
    (b.linear revision).Consecutive first (last + 1) := by
  induction last, hle using Nat.le_induction with
  | base => exact fun i o o' c hi hlt => absurd hlt (by omega)
  | succ last hle ih =>
    have hprev := add_units_le_place hb revision hle (show last < b.places.length by omega)
    have hstep := place_add_charUnits_le hb (Nat.lt_add_one last) hlast
    rw [units_slice_succ (Nat.le_add_right_of_le hle) (getElem?_text hlast)] at heq
    exact (consecutive_succ_iff hle hlast).2 ⟨ih (by omega) (by omega), by omega⟩

/-! ## Ranges -/

theorem anchor_linear (revision : Json) {i : Nat} (hi : i < b.places.length) :
    (b.linear revision).anchor (.int i) = .ok ⟨b.places[i].2, revision⟩ := by
  obtain ⟨o, ho, -, hindex⟩ := origin?_linear revision hi
  rw [LinearText.anchor, Number.value_int, ho, ← hindex]
  rfl

theorem range_of_lt (t : LinearText) {start stop : Int} (h : start < stop) :
    t.range (.int start) (.int stop) = do
      let first ← t.anchor (.int start)
      let last ← t.anchor (.int (stop - 1))
      return (first, last.shifted (t.text.slice (stop - 1).toNat stop.toNat).units) := by
  simp only [LinearText.range, Number.value_int, Int.not_le.2 h, if_false]

/-- The range of a stretch goes from the position of its first character to behind its last one. -/
theorem range_linear (revision : Json) {first last : Nat} (hle : first ≤ last)
    (hlast : last < b.places.length) :
    (b.linear revision).range (.int first) (.int (last + 1 : Nat)) =
      .ok (⟨b.places[first].2, revision⟩,
        ⟨b.places[last].2 + charUnits b.places[last].1, revision⟩) := by
  have hfirst := anchor_linear revision (show first < b.places.length by omega)
  have hcast : ((last + 1 : Nat) : Int) - 1 = last := by omega
  have hunits : ((b.linear revision).text.slice last (last + 1)).units =
      charUnits b.places[last].1 :=
    units_slice_self (getElem?_text hlast)
  rw [range_of_lt _ (by omega), hfirst, hcast, anchor_linear revision hlast, Int.toNat_natCast,
    Int.toNat_natCast, hunits]
  rfl

/-- The range of a stretch of the text without a break starts at the position of its first
character and has the length of the stretch in code units. -/
theorem range_of_consecutive {start stop : Nat} (hlt : start < stop)
    (hstop : stop ≤ b.places.length) (hc : (b.linear revision).Consecutive start stop) :
    (b.linear revision).range (.int start) (.int stop) =
      .ok (⟨b.places[start].2, revision⟩,
        ⟨b.places[start].2 + ((b.linear revision).text.slice start stop).units, revision⟩) := by
  obtain ⟨last, rfl⟩ := Nat.exists_eq_add_one_of_ne_zero (Nat.ne_zero_of_lt hlt)
  rw [range_linear revision (Nat.le_of_lt_succ hlt) hstop,
    place_add_units (Nat.le_of_lt_succ hlt) hstop hc]

end Body

end DocTemplate
