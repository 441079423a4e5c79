import DocTemplate.Plan.SectionTables
import DocTemplate.Proofs.Document.Places
import DocTemplate.Proofs.Marker.Tokens
import DocTemplate.Proofs.Plan.TableFill
import DocTemplate.Proofs.Splice
import Mathlib

/-!
# What a plan of section tables does to a document

The edits for all section markers of a document, carried out as one batch, replace each marker that
has data by its filled table and leave every other slot of the document where it was
(`executeEdits_planSectionTables`). No edit has to know of the others, because the markers are taken
from the last one to the first: the induction is along the markers in that order, over the slots in
front of the markers that are done, with anything behind them (`executeEdits_planMarkers`).
-/

namespace DocTemplate

/-- The part of a document that a filled table takes the place of, for a section marker that has
data. -/
def markerPart (sections : SectionData) (s : Snapshot) (m : SectionMarker) :
    Option (Replacement Slot) :=
  match selectSection m sections, s.linear.origin? m.start with
  | .ok (.ok data), some o =>
    some ⟨o.index.toNat, o.index.toNat + m.raw.units, filledTable o.index data.layout⟩
  | _, _ => none

/-- The parts of a document that filled tables take the place of. -/
def tableParts (sections : SectionData) (s : Snapshot) : List (Replacement Slot) :=
  ((tokenize s.linear.text).filterMap Token.sectionMarker?).filterMap (markerPart sections s)

/-- A snapshot is laid out in `n` positions: its text is that of its body, the runs of the body
stand one behind the other in these positions, and no section marker is broken up. -/
structure Snapshot.LaidOut (s : Snapshot) (n : Nat) : Prop where
  linear_eq : s.linear = s.body.linear s.revision
  ordered : s.body.Ordered
  fits : ∀ r ∈ s.body.runs, r.run.start.value + r.run.content.units ≤ n
  consecutive : ∀ m, .sectionMarker m ∈ tokenize s.linear.text →
    s.linear.Consecutive m.start m.stop

/-- The linear text of a snapshot that was read from a document is that of its body. -/
theorem Snapshot.linear_ofDocument {document documentId tabId : Json} {s : Snapshot}
    (h : Snapshot.ofDocument document documentId tabId = .ok s) :
    s.linear = s.body.linear s.revision := by
  simp only [Snapshot.ofDocument, bind_eq_ok_iff, liftM_fault_eq_ok_iff] at h
  obtain ⟨revision, -, body, -, ownId, -, title, -, h⟩ := h
  rw [← pure_eq_ok_iff.1 h]

/-! ## Markers in positions -/

/-- A section marker takes up the positions from `index` on. -/
structure SectionMarker.StandsAt (m : SectionMarker) (s : Snapshot) (index : Nat) : Prop where
  origin : ∃ o, s.linear.origin? m.start = some o ∧ o.index = index
  range : s.linear.range (.int m.start) (.int m.stop) =
    .ok (⟨index, s.revision⟩, ⟨index + m.raw.units, s.revision⟩)
  units_pos : 0 < m.raw.units

section Markers

variable {s : Snapshot} {n : Nat} {m m' : SectionMarker}

theorem exists_standsAt (hs : s.LaidOut n) (hm : .sectionMarker m ∈ tokenize s.linear.text) :
    ∃ index, m.StandsAt s index ∧ index + m.raw.units ≤ n := by
  obtain ⟨hlt, hle, hraw⟩ := standsIn_of_mem_tokenize hm
  have hc := hs.consecutive m hm
  simp only [Token.start, Token.stop, Token.literal] at hlt hle hraw
  rw [hs.linear_eq] at hle hraw hc
  rw [length_text] at hle
  have hrange := range_of_consecutive hlt hle hc
  obtain ⟨o, ho, -, hindex⟩ :=
    origin?_linear s.revision (show m.start < s.body.places.length by omega)
  have hnonneg := (bounds_of_mem_places hs.ordered
    (List.getElem_mem (show m.start < s.body.places.length by omega))).1
  have hplace : ((s.body.places[m.start].2.toNat : Nat) : Int) = s.body.places[m.start].2 :=
    Int.toNat_of_nonneg hnonneg
  refine ⟨s.body.places[m.start].2.toNat, ⟨⟨o, ?_, ?_⟩, ?_, ?_⟩, ?_⟩
  · rwa [hs.linear_eq]
  · rw [hindex, hplace]
  · rw [hs.linear_eq, hrange, hplace, hraw]
  · have hlength : 0 < m.raw.length := by
      rw [hraw, Text.length_slice, length_text]
      omega
    exact Nat.lt_of_lt_of_le hlength (Text.length_le_units _)
  · obtain ⟨last, hlast⟩ := Nat.exists_eq_add_one_of_ne_zero (Nat.ne_zero_of_lt hlt)
    rw [hlast] at hlt hle hc hraw
    have hend := place_add_units (Nat.le_of_lt_succ hlt) hle hc
    obtain ⟨-, r, hr, hfit⟩ := bounds_of_mem_places hs.ordered (List.getElem_mem hle)
    have := hs.fits r hr
    rw [← hraw] at hend
    omega

theorem index_eq_of_standsAt (hs : s.LaidOut n) (hm : .sectionMarker m ∈ tokenize s.linear.text)
    {i : Nat} (h : m.StandsAt s i) :
    ∃ hlt : m.start < s.body.places.length, s.body.places[m.start].2 = i := by
  obtain ⟨hlt, hle, -⟩ := standsIn_of_mem_tokenize hm
  simp only [Token.start, Token.stop] at hlt hle
  rw [hs.linear_eq, length_text] at hle
  have hstart : m.start < s.body.places.length := by omega
  obtain ⟨o, ho, -, hindex⟩ := origin?_linear s.revision hstart
  obtain ⟨o', ho', hi⟩ := h.origin
  rw [hs.linear_eq, ho, Option.some.injEq] at ho'
  exact ⟨hstart, by rw [← hindex, ho', hi]⟩

/-- A marker behind another one stands in positions behind it. -/
theorem standsAt_le (hs : s.LaidOut n) (hm : .sectionMarker m ∈ tokenize s.linear.text)
    (hm' : .sectionMarker m' ∈ tokenize s.linear.text) (hle : m.stop ≤ m'.start) {i i' : Nat}
    (h : m.StandsAt s i) (h' : m'.StandsAt s i') : i + m.raw.units ≤ i' := by
  obtain ⟨hlt, -, hraw⟩ := standsIn_of_mem_tokenize hm
  have hc := hs.consecutive m hm
  obtain ⟨hstart, hi⟩ := index_eq_of_standsAt hs hm h
  obtain ⟨hstart', hi'⟩ := index_eq_of_standsAt hs hm' h'
  simp only [Token.start, Token.stop, Token.literal] at hlt hraw
  obtain ⟨last, hlast⟩ := Nat.exists_eq_add_one_of_ne_zero (Nat.ne_zero_of_lt hlt)
  rw [hlast] at hlt hle hraw hc
  rw [hs.linear_eq] at hraw hc
  have hend := place_add_units (Nat.le_of_lt_succ hlt) (Nat.lt_of_lt_of_le hle hstart'.le) hc
  have hnext := place_add_charUnits_le hs.ordered.runsApart hle hstart'
  rw [← hraw] at hend
  omega

end Markers

/-! ## The batch -/

section Batch

variable {s : Snapshot} {n : Nat} {sections : SectionData} {m : SectionMarker}

theorem markerPart_of_selected {data : Section} {i : Nat}
    (hselect : selectSection m sections = .ok (.ok data)) (h : m.StandsAt s i) :
    markerPart sections s m = some ⟨i, i + m.raw.units, filledTable i data.layout⟩ := by
  obtain ⟨o, ho, hi⟩ := h.origin
  rw [markerPart, hselect, ho]
  simp only [hi, Int.toNat_natCast]

theorem markerPart_of_skipped {skipped : SkippedSection}
    (hselect : selectSection m sections = .ok (.error skipped)) :
    markerPart sections s m = none := by
  rw [markerPart, hselect]

theorem part_of_markerPart (h : ∃ i, m.StandsAt s i) {r : Replacement Slot}
    (hr : markerPart sections s m = some r) :
    m.StandsAt s r.start ∧ r.stop = r.start + m.raw.units := by
  obtain ⟨i, hi⟩ := h
  rw [markerPart] at hr
  split at hr
  · next data o hselect ho =>
    obtain ⟨o', ho', hindex⟩ := hi.origin
    obtain rfl := Option.some.inj (ho.symm.trans ho')
    obtain rfl := Option.some.inj hr
    simp only [hindex, Int.toNat_natCast, and_true]
    exact hi
  · exact absurd hr (by simp)

/-- The cells of pairs stand in the rows from `row` on. -/
theorem fitsInto_pairCells (style : LayoutStyle) {row rows : Int} {pairs : List KeyValue}
    (hpairs : ∀ p ∈ pairs, ∃ t, p.key = .text t) (hrow : 0 ≤ row)
    (hrows : row + pairs.length ≤ rows) :
    ∀ c ∈ pairCells style row pairs, c.FitsInto rows 2 := by
  induction pairs generalizing row with
  | nil => exact fun c hc => absurd hc List.not_mem_nil
  | cons p rest ih =>
    rw [List.length_cons] at hrows
    have hplace : ∃ r : Int, Json.int row = .int r ∧ 0 ≤ r ∧ r < rows :=
      ⟨row, rfl, hrow, by omega⟩
    rw [pairCells, List.forall_mem_cons, List.forall_mem_cons]
    refine ⟨?_, ?_, ih (fun p' hp' => hpairs p' (List.mem_cons_of_mem _ hp')) (by omega) (by omega)⟩
    · exact ⟨hplace, ⟨0, rfl, by decide⟩, hpairs p List.mem_cons_self, ⟨1, rfl⟩⟩
    · exact ⟨hplace, ⟨1, rfl, by decide⟩, ⟨_, rfl⟩, ⟨1, rfl⟩⟩

/-- The table for a section takes up positions, and if the section is made of texts, its layout fits
into the table. -/
theorem exists_geometry_layout (data : Section) (index : Int) (style : LayoutStyle := {}) :
    ∃ g, TableGeometry.read (.int index) (data.layout style).rowCount
        (data.layout style).columnCount = .ok g ∧
      0 ≤ g.size ∧ (data.Typed → ∀ c ∈ (data.layout style).cells, c.FitsInto g.rows g.columns) := by
  have hsize : ∀ rows : Nat, 0 ≤ (⟨index, rows, 2⟩ : TableGeometry).size := by
    intro rows
    rw [TableGeometry.size_eq]
    show 0 ≤ 3 + (rows : Int) * (1 + 2 * 2)
    omega
  unfold Section.layout
  split
  · refine ⟨⟨index, _, 2⟩, rfl, hsize (data.pairs.length + 1), fun htyped => ?_⟩
    rw [List.forall_mem_cons]
    refine ⟨⟨⟨0, rfl, by decide, ?_⟩, ⟨0, rfl, ?_⟩, htyped.title, ⟨2, rfl⟩⟩, ?_⟩
    · show (0 : Int) < data.pairs.length + 1
      omega
    · show (0 : Int) ≤ 0 ∧ (0 : Int) < 2
      decide
    · refine fitsInto_pairCells _ (fun p hp => (htyped.pairs p hp).1) (by decide) ?_
      show 1 + (data.pairs.length : Int) ≤ data.pairs.length + 1
      omega
  · refine ⟨⟨index, _, 2⟩, rfl, hsize data.pairs.length, fun htyped => ?_⟩
    refine fitsInto_pairCells _ (fun p hp => (htyped.pairs p hp).1) (by decide) ?_
    show 0 + (data.pairs.length : Int) ≤ data.pairs.length
    omega

theorem exists_hasCompletePair {pairs : List KeyValue}
    (h : ∀ p ∈ pairs, (∃ t, p.key = .text t) ∧ ∃ t, p.value = .text t) :
    ∃ complete, Section.hasCompletePair pairs = .ok complete := by
  induction pairs with
  | nil => exact ⟨_, rfl⟩
  | cons p rest ih =>
    obtain ⟨complete, hrest⟩ := ih fun p' hp' => h p' (List.mem_cons_of_mem _ hp')
    obtain ⟨⟨k, hk⟩, v, hv⟩ := h p List.mem_cons_self
    rw [Section.hasCompletePair, hk, hv, hrest]
    cases hkey : Text.blank k with
    | true => exact ⟨complete, by simp [Entry.isBlank, hkey, bind, Except.bind]⟩
    | false =>
      cases hvalue : Text.blank v with
      | true => exact ⟨complete, by simp [Entry.isBlank, hkey, hvalue, bind, Except.bind]⟩
      | false =>
        exact ⟨true, by simp [Entry.isBlank, hkey, hvalue, bind, Except.bind, pure, Except.pure]⟩

theorem exists_selectSection
    (htyped : ∀ name data, sections.get? name = some (some data) → data.Typed)
    (m : SectionMarker) : ∃ selected, selectSection m sections = .ok selected := by
  rw [selectSection]
  cases hget : (sections.get? m.name).join with
  | none => exact ⟨_, rfl⟩
  | some data =>
    obtain ⟨⟨t, ht⟩, hpairs⟩ := htyped m.name data (Option.join_eq_some_iff.1 hget)
    obtain ⟨complete, hcomplete⟩ := exists_hasCompletePair hpairs
    have hcontent : ∃ content, data.hasContent = .ok content := by
      rw [Section.hasContent, ht, hcomplete]
      cases hblank : Text.blank t with
      | true => exact ⟨false, by simp [Entry.isBlank, hblank, bind, Except.bind, pure, Except.pure]⟩
      | false => exact ⟨complete, by simp [Entry.isBlank, hblank, bind, Except.bind]⟩
    obtain ⟨content, hcontent⟩ := hcontent
    cases content with
    | true => exact ⟨.ok data, by simp [hcontent, bind, Except.bind, pure, Except.pure]⟩
    | false => exact ⟨_, by simp [hcontent, bind, Except.bind, pure, Except.pure]; rfl⟩

theorem typed_of_selectSection
    (htyped : ∀ name data, sections.get? name = some (some data) → data.Typed) {data : Section}
    (h : selectSection m sections = .ok (.ok data)) : data.Typed := by
  rw [selectSection] at h
  cases hget : (sections.get? m.name).join with
  | none => simp [hget, pure, Except.pure] at h
  | some data' =>
    simp only [hget, bind_eq_ok_iff] at h
    obtain ⟨content, -, h⟩ := h
    cases content with
    | false => simp [pure, Except.pure] at h
    | true =>
      obtain rfl : data' = data := by simpa [pure, Except.pure] using h
      exact htyped m.name _ (Option.join_eq_some_iff.1 hget)

/-- Data for a single section are made of texts if that section is. -/
theorem typed_of_singleton {key name : Text} {data found : Section}
    (h : sections.entries = [(key, some data)]) (hdata : data.Typed)
    (hfound : sections.get? name = some (some found)) : found.Typed := by
  rw [OrderedMap.get?, h] at hfound
  obtain ⟨as, bs, heq, -⟩ := List.lookup_eq_some_iff.1 hfound
  have hmem : (name, some found) ∈ [(key, some data)] := heq ▸ List.mem_append_right as (by simp)
  obtain ⟨rfl, rfl⟩ : name = key ∧ found = data := by simpa using hmem
  exact hdata

/-- What planning the first of some markers does: it is skipped, or its edits come first. -/
theorem planMarkers_cons {rest : List SectionMarker} {plan : SectionTablePlan}
    (h : planMarkers sections s (m :: rest) = .ok plan) :
    ∃ plan', planMarkers sections s rest = .ok plan' ∧
      ((∃ skipped, selectSection m sections = .ok (.error skipped) ∧
          plan = { plan' with skipped := plan'.skipped ++ [skipped] }) ∨
        ∃ data start stop edits, selectSection m sections = .ok (.ok data) ∧
          s.range (.int m.start) (.int m.stop) = .ok (start, stop) ∧
          planMarkerTable (.int start.index) (.int stop.index) data.layout = .ok edits ∧
          plan = { plan' with
            edits := edits ++ plan'.edits, rendered := plan'.rendered ++ [m.name] }) := by
  simp only [planMarkers, bind_eq_ok_iff, liftM_fault_eq_ok_iff] at h
  obtain ⟨selected, hselect, h⟩ := h
  cases selected with
  | error skipped =>
    simp only [bind_eq_ok_iff] at h
    obtain ⟨plan', hplan', h⟩ := h
    exact ⟨plan', hplan', .inl ⟨skipped, hselect, (pure_eq_ok_iff.1 h).symm⟩⟩
  | ok data =>
    simp only [bind_eq_ok_iff, liftM_engine_eq_ok_iff] at h
    obtain ⟨⟨start, stop⟩, hrange, edits, hedits, plan', hplan', h⟩ := h
    exact ⟨plan', hplan', .inr ⟨data, start, stop, edits, hselect, hrange, hedits,
      (pure_eq_ok_iff.1 h).symm⟩⟩

/-- Ranges of a snapshot are ranges of its text. -/
theorem linear_range_of_range {start stop : Number} {range : Anchor × Anchor}
    (h : s.range start stop = .ok range) : s.linear.range start stop = .ok range := by
  obtain ⟨-, -, hrange⟩ := bind_eq_ok_iff.1 h
  exact hrange

/-- The parts for markers that stand in increasing order stand in increasing order. -/
theorem pairwise_parts (hs : s.LaidOut n) {markers : List SectionMarker}
    (hmem : ∀ m ∈ markers, .sectionMarker m ∈ tokenize s.linear.text)
    (hsorted : markers.Pairwise fun m m' => m.stop ≤ m'.start) :
    (markers.filterMap (markerPart sections s)).Pairwise fun r r' => r.stop ≤ r'.start := by
  refine List.pairwise_filterMap.2 (hsorted.imp_of_mem ?_)
  intro m m' hm hm' hle r hr r' hr'
  have hplaced : ∀ m ∈ markers, ∃ i, m.StandsAt s i := by
    intro m hm
    obtain ⟨i, hi, -⟩ := exists_standsAt hs (hmem m hm)
    exact ⟨i, hi⟩
  obtain ⟨hstart, hstop⟩ := part_of_markerPart (hplaced m hm) hr
  obtain ⟨hstart', -⟩ := part_of_markerPart (hplaced m' hm') hr'
  rw [hstop]
  exact standsAt_le hs (hmem m hm) (hmem m' hm') hle hstart hstart'

/-- The parts for markers that end within some positions lie within them. -/
theorem bounds_of_mem_parts (hs : s.LaidOut n) {markers : List SectionMarker} {limit : Nat}
    (hmem : ∀ m ∈ markers, .sectionMarker m ∈ tokenize s.linear.text)
    (hlimit : ∀ m ∈ markers, ∀ i, m.StandsAt s i → i + m.raw.units ≤ limit) :
    ∀ r ∈ markers.filterMap (markerPart sections s), r.start ≤ r.stop ∧ r.stop ≤ limit := by
  intro r hr
  obtain ⟨m, hm, hpart⟩ := List.mem_filterMap.1 hr
  obtain ⟨i, hi, -⟩ := exists_standsAt hs (hmem m hm)
  obtain ⟨hstart, hstop⟩ := part_of_markerPart ⟨i, hi⟩ hpart
  have := hlimit m hm _ hstart
  omega

/-- Carrying out the edits for markers that are listed from the last one to the first. Whatever
stands behind the slots of the markers stays behind them. -/
theorem executeEdits_planMarkers (hs : s.LaidOut n) {markers : List SectionMarker}
    (hmem : ∀ m ∈ markers, .sectionMarker m ∈ tokenize s.linear.text)
    (hsorted : markers.Pairwise fun m m' => m'.stop ≤ m.start) {plan : SectionTablePlan}
    (h : planMarkers sections s markers = .ok plan) {front : List Slot} (back : List Slot)
    (hfront : ∀ m ∈ markers, ∀ i, m.StandsAt s i → i + m.raw.units ≤ front.length) :
    executeEdits (front ++ back) plan.edits =
      some (splice front (markers.reverse.filterMap (markerPart sections s)) ++ back) := by
  induction markers generalizing front back plan with
  | nil =>
    obtain rfl := Except.ok.inj h
    rfl
  | cons m rest ih =>
    obtain ⟨hfirst, hrest⟩ := List.pairwise_cons.1 hsorted
    have hm := hmem m List.mem_cons_self
    have hmem' : ∀ m ∈ rest, .sectionMarker m ∈ tokenize s.linear.text :=
      fun m' hm' => hmem m' (List.mem_cons_of_mem _ hm')
    obtain ⟨plan', hplan', hcase⟩ := planMarkers_cons h
    rw [List.reverse_cons, List.filterMap_append]
    rcases hcase with ⟨skipped, hselect, rfl⟩ |
      ⟨data, start, stop, edits, hselect, hrange, htable, rfl⟩
    · rw [List.filterMap_cons_none (markerPart_of_skipped hselect), List.filterMap_nil,
        List.append_nil]
      exact ih hmem' hrest hplan' back fun m' hm' => hfront m' (List.mem_cons_of_mem _ hm')
    · obtain ⟨i, hi, -⟩ := exists_standsAt hs hm
      have hrange' := linear_range_of_range hrange
      obtain ⟨rfl, rfl⟩ := Prod.mk.inj (Except.ok.inj (hrange'.symm.trans hi.range))
      have hend := hfront m List.mem_cons_self i hi
      obtain ⟨pre, marker, mid, rfl, rfl, hlength⟩ := exists_eq_append_append hend
      -- the markers that are left stand in front of this one
      have hbefore : ∀ m' ∈ rest, ∀ i, m'.StandsAt s i → i + m'.raw.units ≤ pre.length :=
        fun m' hm' i' hi' => standsAt_le hs (hmem' m' hm') hm (hfirst m' hm') hi' hi
      obtain ⟨g, hg, hsize, -⟩ := exists_geometry_layout data pre.length
      have hmarker : marker ≠ [] := by
        rintro rfl
        exact absurd hi.units_pos (by simp [← hlength])
      rw [← hlength] at htable
      have hstep : executeEdits (pre ++ (marker ++ (mid ++ back))) edits =
          some (pre ++ (filledTable pre.length data.layout ++ (mid ++ back))) :=
        executeEdits_planMarkerTable hg hsize hmarker htable
      have hparts : ∀ r ∈ rest.reverse.filterMap (markerPart sections s),
          0 ≤ r.start ∧ r.start ≤ r.stop ∧ r.stop ≤ 0 + pre.length := by
        intro r hr
        rw [Nat.zero_add]
        exact ⟨Nat.zero_le _, bounds_of_mem_parts hs
          (fun m' hm' => hmem' m' (List.mem_reverse.1 hm'))
          (fun m' hm' => hbefore m' (List.mem_reverse.1 hm')) r hr⟩
      have hp : (rest.reverse.filterMap (markerPart sections s)).Pairwise
          fun r r' => r.stop ≤ r'.start :=
        pairwise_parts hs (fun m' hm' => hmem' m' (List.mem_reverse.1 hm'))
          (List.pairwise_reverse.2 hrest)
      rw [executeEdits_append, List.append_assoc, List.append_assoc, hstep,
        Option.bind_some, ih hmem' hrest hplan' _ hbefore,
        List.filterMap_cons_some (markerPart_of_selected hselect hi), List.filterMap_nil, splice,
        splice, spliceFrom_append_append pre (marker ++ mid) hp hparts (by simp), Nat.zero_add,
        ← hlength, spliceFrom_cons]
      simp only [spliceFrom, List.append_assoc]

/-- Planning succeeds for sections of texts if every marker that gets a table has a range: every
layout fits its table. -/
theorem exists_planMarkers_of_ranges
    (htyped : ∀ name data, sections.get? name = some (some data) → data.Typed)
    {markers : List SectionMarker}
    (hranges : ∀ m ∈ markers, ∀ data, selectSection m sections = .ok (.ok data) →
      ∃ range, s.range (.int m.start) (.int m.stop) = .ok range) :
    ∃ plan, planMarkers sections s markers = .ok plan := by
  induction markers with
  | nil => exact ⟨_, rfl⟩
  | cons m rest ih =>
    obtain ⟨plan, hplan⟩ := ih fun m' hm' => hranges m' (List.mem_cons_of_mem _ hm')
    obtain ⟨selected, hselect⟩ := exists_selectSection htyped m
    simp only [planMarkers, bind_eq_ok_iff, liftM_fault_eq_ok_iff]
    cases selected with
    | error skipped => exact ⟨_, _, hselect, by simp only [hplan]; rfl⟩
    | ok data =>
      obtain ⟨⟨start, stop⟩, hrange⟩ := hranges m List.mem_cons_self data hselect
      obtain ⟨g, hg, -, hcells⟩ := exists_geometry_layout data start.index
      obtain ⟨edits, hedits⟩ :=
        exists_planMarkerTable hg stop.index (hcells (typed_of_selectSection htyped hselect))
      refine ⟨{ plan with edits := edits ++ plan.edits, rendered := plan.rendered ++ [m.name] },
        .ok data, hselect, ?_⟩
      simp only [bind_eq_ok_iff, liftM_engine_eq_ok_iff]
      exact ⟨_, hrange, edits, hedits, plan, hplan, rfl⟩

/-- Planning succeeds for sections of texts: no marker is without a position. -/
theorem exists_planMarkers (hs : s.LaidOut n) (hrevision : s.revision.same s.revision = true)
    (htyped : ∀ name data, sections.get? name = some (some data) → data.Typed)
    {markers : List SectionMarker}
    (hmem : ∀ m ∈ markers, .sectionMarker m ∈ tokenize s.linear.text) :
    ∃ plan, planMarkers sections s markers = .ok plan := by
  refine exists_planMarkers_of_ranges htyped fun m hm data _ => ?_
  obtain ⟨i, hi, -⟩ := exists_standsAt hs (hmem m hm)
  have hcheck : s.checkRevision s.linear (Json.int m.start) = .ok () := by
    rw [Snapshot.checkRevision, hs.linear_eq]
    exact if_pos hrevision
  exact ⟨_, bind_eq_ok_iff.2 ⟨(), hcheck, hi.range⟩⟩

end Batch

/-- **A batch of section tables puts every table in its place**: carried out in order on the slots
of a document, it replaces the slots of each section marker that has data by the slots of its table
with the texts of the cells in front of the slots where they are inserted, and leaves all other
slots as they are. There is such a batch if the sections are made of texts. -/
theorem executeEdits_planSectionTables {s : Snapshot} {slots : List Slot}
    (hs : s.LaidOut slots.length) (sections : SectionData) :
    (∀ plan, planSectionTables sections s = .ok plan →
      executeEdits slots plan.edits = some (splice slots (tableParts sections s))) ∧
    (s.revision.same s.revision = true →
      (∀ name data, sections.get? name = some (some data) → data.Typed) →
      ∃ plan, planSectionTables sections s = .ok plan) := by
  have hmem : ∀ m ∈ (TemplateScan.ofLinear s.linear).sectionMarkers.reverse,
      .sectionMarker m ∈ tokenize s.linear.text := by
    intro m hm
    exact mem_sectionTokens.1 (List.mem_reverse.1 hm)
  have hsorted : (TemplateScan.ofLinear s.linear).sectionMarkers.reverse.Pairwise
      fun m m' => m'.stop ≤ m.start :=
    List.pairwise_reverse.2 (pairwise_sectionTokens s.linear.text)
  refine ⟨fun plan hplan => ?_, fun hrevision htyped => exists_planMarkers hs hrevision htyped hmem⟩
  have hfits : ∀ m ∈ (TemplateScan.ofLinear s.linear).sectionMarkers.reverse, ∀ i,
      m.StandsAt s i → i + m.raw.units ≤ slots.length := by
    intro m hm i hi
    obtain ⟨i', hi', hle⟩ := exists_standsAt hs (hmem m hm)
    obtain ⟨_, hindex⟩ := index_eq_of_standsAt hs (hmem m hm) hi
    obtain ⟨_, hindex'⟩ := index_eq_of_standsAt hs (hmem m hm) hi'
    obtain rfl : i = i' := Int.ofNat.inj (hindex.symm.trans hindex')
    exact hle
  have h := executeEdits_planMarkers hs hmem hsorted hplan [] hfits
  rw [List.append_nil, List.append_nil, List.reverse_reverse] at h
  exact h

/-- A document of one line that has two section markers side by side. -/
def twoMarkers : Snapshot :=
  .ofBody ⟨[.paragraph ⟨.int 1, .int 28, [.run ⟨.int 1, .int 28,
    sectionOpening ++ ['A', ']', ']'] ++ (sectionOpening ++ ['B', ']', ']', '\n']), .obj []⟩],
      .str "NORMAL_TEXT"⟩]⟩

/-- Data for the first of the two markers. -/
def firstSection : SectionData :=
  ⟨[(['A'], some ⟨.text ['T'], [⟨.text ['k'], .text ['v']⟩]⟩)], by decide⟩

theorem laidOut_twoMarkers : twoMarkers.LaidOut 28 where
  linear_eq := rfl
  ordered := ⟨by decide, by decide⟩
  fits := by decide
  consecutive := fun m _ => consecutive_of_runs_eq rfl m.start m.stop

theorem executeEdits_twoMarkers :
    twoMarkers.LaidOut 28 ∧ twoMarkers.revision.same twoMarkers.revision = true ∧
      (∀ name data, firstSection.get? name = some (some data) → data.Typed) ∧
      ∃ plan, planSectionTables firstSection twoMarkers = .ok plan ∧
        executeEdits ((List.range 28).map .native) plan.edits =
          some ([.native 0] ++
            filledTable 1 (Section.layout ⟨.text ['T'], [⟨.text ['k'], .text ['v']⟩]⟩) ++
            (List.range' 14 14).map .native) := by
  have hs : twoMarkers.LaidOut ((List.range 28).map Slot.native).length := laidOut_twoMarkers
  have htyped : ∀ name data, firstSection.get? name = some (some data) → data.Typed :=
    fun name data => typed_of_singleton rfl ⟨⟨_, rfl⟩, by simp⟩
  obtain ⟨hexec, hexists⟩ := executeEdits_planSectionTables hs firstSection
  obtain ⟨plan, hplan⟩ := hexists rfl htyped
  refine ⟨hs, rfl, htyped, plan, hplan, (hexec plan hplan).trans ?_⟩
  cbv

end DocTemplate
