import DocTemplate.Proofs.Plan.Outcomes

/-!
# What the deletions of a batch take away

A batch of section tables deletes, for each marker that gets a table, the range from the first to
the last character of the marker. These are the slots of the marker's own characters if and only if
its characters follow each other without a break (`removals_planSectionTables_iff`): whatever else
stands between two of them lies in the range too, and is deleted with the marker.
-/

namespace DocTemplate

/-! ## Deletions -/

/-- The slots that an edit deletes. -/
def Edit.deletedSlots (slots : List Slot) : Edit → List (List Slot)
  | .deleteRange start stop =>
    match start.number?, stop.number? with
    | some start, some stop => [(slots.take stop.value.toNat).drop start.value.toNat]
    | _, _ => []
  | _ => []

/-- The slots that the deletions of a batch take away, one list for each deletion, if the batch can
be carried out. -/
def removals (slots : List Slot) : List Edit → Option (List (List Slot))
  | [] => some []
  | e :: rest => do
    let after ← e.onSlots slots
    return e.deletedSlots slots ++ (← removals after rest)

theorem removals_append {slots mid : List Slot} {a b : List Edit} {taken taken' : List (List Slot)}
    (ha : removals slots a = some taken) (hmid : executeEdits slots a = some mid)
    (hb : removals mid b = some taken') : removals slots (a ++ b) = some (taken ++ taken') := by
  induction a generalizing slots taken with
  | nil =>
    obtain rfl := Option.some.inj ha
    obtain rfl := Option.some.inj hmid
    exact hb
  | cons e rest ih =>
    rw [executeEdits_cons] at hmid
    obtain ⟨after, hafter, hmid⟩ := Option.bind_eq_some_iff.1 hmid
    simp only [removals, hafter, Option.bind_eq_bind, Option.bind_some,
      Option.bind_eq_some_iff] at ha
    obtain ⟨others, hothers, heq⟩ := ha
    obtain rfl := Option.some.inj heq
    simp only [List.cons_append, removals, hafter, Option.bind_eq_bind, Option.bind_some,
      ih hothers hmid]
    exact congrArg some (List.append_assoc _ _ _).symm

theorem removals_eq_nil {slots after : List Slot} {edits : List Edit}
    (h : ∀ e ∈ edits, ¬ e.IsDeletion) (hexec : executeEdits slots edits = some after) :
    removals slots edits = some [] := by
  induction edits generalizing slots with
  | nil => rfl
  | cons e rest ih =>
    rw [executeEdits_cons] at hexec
    obtain ⟨mid, hmid, hexec⟩ := Option.bind_eq_some_iff.1 hexec
    obtain ⟨he, hrest⟩ := List.forall_mem_cons.1 h
    have hnone : e.deletedSlots slots = [] := by
      cases e with
      | deleteRange start stop => exact absurd trivial he
      | _ => rfl
    simp only [removals, hmid, hnone, Option.bind_eq_bind, Option.bind_some, ih hrest hexec]
    rfl

theorem removals_deleteRange (l m r : List Slot) :
    removals (l ++ (m ++ r)) [.deleteRange (.int l.length) (.int (l.length + m.length))] =
      some [m] := by
  have hslots : (Edit.deleteRange (.int l.length) (.int (l.length + m.length))).onSlots
      (l ++ (m ++ r)) = some (l ++ r) := removeSlots_length l m r
  have htaken : ((l ++ (m ++ r)).take (l.length + m.length)).drop l.length = m := by
    rw [List.take_length_add_append, List.drop_left, List.take_left]
  simp only [removals, hslots, Option.bind_eq_bind, Option.bind_some]
  exact congrArg (fun taken => some [taken]) htaken

/-- The edits for a marker delete the slots of its range and nothing else. -/
theorem removals_planMarkerTable {pre marker post : List Slot} {layout : TableLayout}
    {edits : List Edit} {g : TableGeometry}
    (hg : TableGeometry.read (.int pre.length) layout.rowCount layout.columnCount = .ok g)
    (hsize : 0 ≤ g.size) (hmarker : marker ≠ [])
    (h : planMarkerTable (.int pre.length) (.int (pre.length + marker.length)) layout = .ok edits) :
    removals (pre ++ (marker ++ post)) edits = some [marker] := by
  obtain ⟨before, front, -, rfl, hkeep, hexec⟩ :=
    @planMarkerTable_split pre marker post _ _ _ hg hsize hmarker h
  exact removals_append (removals_eq_nil hkeep hexec) hexec (removals_deleteRange _ _ _)

/-! ## The positions of a stretch -/

/-- The slots of the positions from `start` up to `stop` of a document. -/
def nativeSlots (start stop : Nat) : List Slot :=
  (List.range' start (stop - start)).map .native

/-- All characters of a body stand in the first `n` positions. -/
def Body.Within (b : Body) (n : Nat) : Prop :=
  ∀ p ∈ b.places, 0 ≤ p.2 ∧ p.2 + charUnits p.1 ≤ n

instance (b : Body) (n : Nat) : Decidable (b.Within n) :=
  inferInstanceAs (Decidable (∀ p ∈ b.places, 0 ≤ p.2 ∧ p.2 + charUnits p.1 ≤ n))

/-- A position belongs to one of the characters from `start` up to `stop`. -/
def LinearText.Occupies (t : LinearText) (start stop : Nat) (position : Int) : Prop :=
  ∃ i o c, start ≤ i ∧ i < stop ∧ t.origins[i]? = some o ∧ t.text[i]? = some c ∧
    o.index ≤ position ∧ position < o.index + charUnits c

@[simp] theorem length_nativeSlots (start stop : Nat) :
    (nativeSlots start stop).length = stop - start := by
  rw [nativeSlots, List.length_map, List.length_range']

theorem mem_nativeSlots {start stop : Nat} {slot : Slot} :
    slot ∈ nativeSlots start stop ↔ ∃ i, start ≤ i ∧ i < stop ∧ slot = .native i := by
  simp only [nativeSlots, List.mem_map, List.mem_range'_1]
  constructor
  · rintro ⟨i, ⟨hle, hlt⟩, rfl⟩
    exact ⟨i, hle, by omega, rfl⟩
  · rintro ⟨i, hle, hlt, rfl⟩
    exact ⟨i, ⟨hle, by omega⟩, rfl⟩

theorem nativeSlots_append {start mid stop : Nat} (hstart : start ≤ mid) (hstop : mid ≤ stop) :
    nativeSlots start mid ++ nativeSlots mid stop = nativeSlots start stop := by
  have hmid : mid = start + (mid - start) := by omega
  have hlength : stop - start = (mid - start) + (stop - mid) := by omega
  rw [nativeSlots, nativeSlots, nativeSlots, ← List.map_append, hlength,
    ← List.range'_append_1, ← hmid]

section Stretches

variable {b : Body} {revision : Json} {first last : Nat} {position : Int}

theorem occupies_linear_iff (hlast : last < b.places.length) :
    (b.linear revision).Occupies first (last + 1) position ↔
      ∃ (i : Nat) (hi : i ≤ last), first ≤ i ∧ b.places[i].2 ≤ position ∧
        position < b.places[i].2 + charUnits b.places[i].1 := by
  constructor
  · rintro ⟨i, o, c, hle, hlt, ho, hc, hfront, hback⟩
    obtain ⟨o', -, ho', hindex⟩ := origin?_linear revision (show i < b.places.length by omega)
    obtain rfl := Option.some.inj (ho.symm.trans ho')
    have hchar := Option.some.inj (hc.symm.trans (getElem?_text (by omega)))
    rw [hindex] at hfront hback
    rw [hchar] at hback
    exact ⟨i, Nat.le_of_lt_succ hlt, hle, hfront, hback⟩
  · rintro ⟨i, hi, hle, hfront, hback⟩
    obtain ⟨o, -, ho, hindex⟩ := origin?_linear revision (show i < b.places.length by omega)
    rw [← hindex] at hfront hback
    exact ⟨i, o, _, hle, Nat.lt_succ_of_le hi, ho, getElem?_text (by omega), hfront, hback⟩

/-- The characters of a stretch without a break take up all positions from the first of them to the
end of the last one, and no others. -/
theorem occupies_iff_of_consecutive (hb : b.RunsApart) (hle : first ≤ last)
    (hfirst : first < b.places.length) (hlast : last < b.places.length)
    (hc : (b.linear revision).Consecutive first (last + 1)) :
    (b.linear revision).Occupies first (last + 1) position ↔
      b.places[first].2 ≤ position ∧
        position < b.places[last].2 + charUnits b.places[last].1 := by
  rw [occupies_linear_iff hlast]
  constructor
  · rintro ⟨i, hi, hge, hfront, hback⟩
    have hbefore := place_le hb hge (show i < b.places.length by omega)
    refine ⟨Int.le_trans hbefore hfront, ?_⟩
    rcases Nat.lt_or_eq_of_le hi with hlt | rfl
    · have hafter := place_add_charUnits_le hb hlt hlast
      have hpos := charUnits_pos b.places[last].1
      omega
    · exact hback
  · rintro ⟨hfront, hback⟩
    induction last, hle using Nat.le_induction with
    | base => exact ⟨first, Nat.le_refl _, Nat.le_refl _, hfront, hback⟩
    | succ last hle ih =>
      obtain ⟨hc, hnext⟩ := (consecutive_succ_iff hle hlast).1 hc
      by_cases hin : position < b.places[last + 1].2
      · obtain ⟨i, hi, h⟩ := ih (by omega) hc (hnext ▸ hin)
        exact ⟨i, by omega, h⟩
      · exact ⟨last + 1, Nat.le_refl _, by omega, by omega, hback⟩

end Stretches

/-! ## The deletions of a batch of section tables -/

/-- The section markers of a snapshot that get a table, in reading order. -/
def renderedMarkers (sections : SectionData) (s : Snapshot) : List SectionMarker :=
  (TemplateScan.ofLinear s.linear).sectionMarkers.filter (getsTable sections)

/-- What is taken away are the slots of the marker's own characters, as many as its literal has code
units. -/
structure RemovesLiteral (t : LinearText) (m : SectionMarker) (taken : List Slot) : Prop where
  length_eq : taken.length = m.raw.units
  mem_iff : ∀ slot, slot ∈ taken ↔ ∃ i : Nat, slot = .native i ∧ t.Occupies m.start m.stop i

/-- The slots of the range of a marker, from its first to its last character. -/
def markerSlots (s : Snapshot) (m : SectionMarker) : List Slot :=
  match s.linear.range (.int m.start) (.int m.stop) with
  | .ok (start, stop) => nativeSlots start.index.toNat stop.index.toNat
  | .error _ => []

section Batch

variable {s : Snapshot} {n : Nat} {sections : SectionData} {m m' : SectionMarker}

/-- The range of a section marker, by the places of its first and its last character. -/
theorem range_of_marker (hlinear : s.linear = s.body.linear s.revision)
    (hm : .sectionMarker m ∈ tokenize s.linear.text) :
    ∃ (last : Nat) (hle : m.start ≤ last) (hlast : last < s.body.places.length),
      m.stop = last + 1 ∧ m.raw = s.linear.text.slice m.start (last + 1) ∧
      s.linear.range (.int m.start) (.int m.stop) =
        .ok (⟨s.body.places[m.start].2, s.revision⟩,
          ⟨s.body.places[last].2 + charUnits s.body.places[last].1, s.revision⟩) := by
  obtain ⟨hlt, hle, hraw⟩ := standsIn_of_mem_tokenize hm
  simp only [Token.start, Token.stop, Token.literal] at hlt hle hraw
  obtain ⟨last, hlast⟩ := Nat.exists_eq_add_one_of_ne_zero (Nat.ne_zero_of_lt hlt)
  rw [hlinear, length_text, hlast] at hle
  rw [hlast] at hlt hraw
  refine ⟨last, Nat.le_of_lt_succ hlt, hle, hlast, hraw, ?_⟩
  rw [hlinear, hlast]
  exact range_linear s.revision (Nat.le_of_lt_succ hlt) hle

/-- The range of a section marker takes up positions of the document, as many as its literal has
code units at least. -/
theorem exists_range_of_marker (hlinear : s.linear = s.body.linear s.revision)
    (hb : s.body.RunsApart) (hn : s.body.Within n)
    (hm : .sectionMarker m ∈ tokenize s.linear.text) :
    ∃ i j : Nat, s.linear.range (.int m.start) (.int m.stop) =
        .ok (⟨i, s.revision⟩, ⟨j, s.revision⟩) ∧ i < j ∧ j ≤ n := by
  obtain ⟨last, hle, hlast, -, -, hrange⟩ := range_of_marker hlinear hm
  have hfirst := hn _ (List.getElem_mem (show m.start < s.body.places.length by omega))
  have hend := hn _ (List.getElem_mem hlast)
  have hbefore := place_le hb hle hlast
  have hpos := charUnits_pos s.body.places[last].1
  obtain ⟨i, hi⟩ := Int.eq_ofNat_of_zero_le hfirst.1
  obtain ⟨j, hj⟩ := Int.eq_ofNat_of_zero_le (show 0 ≤ s.body.places[last].2 +
    charUnits s.body.places[last].1 by omega)
  rw [hi, hj] at hrange
  exact ⟨i, j, hrange, by omega, by omega⟩

/-- A marker behind another one has its range behind the range of that one. -/
theorem range_le_of_stop_le (hlinear : s.linear = s.body.linear s.revision)
    (hb : s.body.RunsApart) (hm : .sectionMarker m ∈ tokenize s.linear.text)
    (hm' : .sectionMarker m' ∈ tokenize s.linear.text) (hle : m.stop ≤ m'.start)
    {start stop start' stop' : Anchor}
    (h : s.linear.range (.int m.start) (.int m.stop) = .ok (start, stop))
    (h' : s.linear.range (.int m'.start) (.int m'.stop) = .ok (start', stop')) :
    stop.index ≤ start'.index := by
  obtain ⟨last, hfirst, hlast, hstop, -, hrange⟩ := range_of_marker hlinear hm
  obtain ⟨last', hle', hlast', -, -, hrange'⟩ := range_of_marker hlinear hm'
  obtain ⟨rfl, rfl⟩ := Prod.mk.inj (Except.ok.inj (h.symm.trans hrange))
  obtain ⟨rfl, rfl⟩ := Prod.mk.inj (Except.ok.inj (h'.symm.trans hrange'))
  exact place_add_charUnits_le hb (by omega) (by omega)

/-- The slots of the range of a marker are those of its own characters if and only if these follow
each other without a break. -/
theorem removesLiteral_markerSlots_iff (hlinear : s.linear = s.body.linear s.revision)
    (hb : s.body.RunsApart) (hn : s.body.Within n)
    (hm : .sectionMarker m ∈ tokenize s.linear.text) :
    RemovesLiteral s.linear m (markerSlots s m) ↔ s.linear.Consecutive m.start m.stop := by
  obtain ⟨last, hle, hlast, hstop, hraw, hrange⟩ := range_of_marker hlinear hm
  obtain ⟨i, j, hnat, hlt, -⟩ := exists_range_of_marker hlinear hb hn hm
  obtain ⟨hi, hj⟩ : s.body.places[m.start].2 = i ∧
      s.body.places[last].2 + charUnits s.body.places[last].1 = j := by
    have heq := Prod.mk.inj (Except.ok.inj (hrange.symm.trans hnat))
    exact ⟨congrArg Anchor.index heq.1, congrArg Anchor.index heq.2⟩
  have hslots : markerSlots s m = nativeSlots i j := by
    rw [markerSlots, hnat]
    rfl
  rw [hlinear] at hraw
  rw [hslots, hstop, hlinear]
  constructor
  · intro h
    have hlength := h.length_eq
    rw [length_nativeSlots, hraw] at hlength
    refine consecutive_of_add_units_eq hb hle hlast ?_
    omega
  · intro hc
    have hend := place_add_units hle hlast hc
    refine ⟨?_, fun slot => ?_⟩
    · rw [length_nativeSlots, hraw]
      omega
    · rw [mem_nativeSlots, hstop]
      simp only [occupies_iff_of_consecutive hb hle (Nat.lt_of_le_of_lt hle hlast) hlast hc, hi, hj]
      constructor
      · rintro ⟨k, hik, hkj, rfl⟩
        exact ⟨k, rfl, by omega, by omega⟩
      · rintro ⟨k, rfl, hik, hkj⟩
        exact ⟨k, by omega, by omega, rfl⟩

/-- The deletions in the edits for markers that are listed from the last one to the first. The
slots in front of a marker are still those of the document when its turn comes; whatever stands
behind it makes no difference. -/
theorem removals_planMarkers (hlinear : s.linear = s.body.linear s.revision)
    (hb : s.body.RunsApart) (hn : s.body.Within n) {markers : List SectionMarker}
    (hmem : ∀ m ∈ markers, .sectionMarker m ∈ tokenize s.linear.text)
    (hsorted : markers.Pairwise fun m m' => m'.stop ≤ m.start) {plan : SectionTablePlan}
    (h : planMarkers sections s markers = .ok plan) {limit : Nat}
    (hlimit : ∀ m ∈ markers, ∀ start stop,
      s.linear.range (.int m.start) (.int m.stop) = .ok (start, stop) → stop.index ≤ limit)
    (back : List Slot) :
    removals (nativeSlots 0 limit ++ back) plan.edits =
      some ((markers.filter (getsTable sections)).map (markerSlots s)) := by
  induction markers generalizing limit back plan with
  | nil =>
    obtain rfl := Except.ok.inj h
    rfl
  | cons m rest ih =>
    obtain ⟨hfirst, hrest⟩ := List.pairwise_cons.1 hsorted
    have hm := hmem m List.mem_cons_self
    have hmem' : ∀ m ∈ rest, .sectionMarker m ∈ tokenize s.linear.text :=
      fun m' hm' => hmem m' (List.mem_cons_of_mem _ hm')
    obtain ⟨plan', hplan', hcase⟩ := planMarkers_cons h
    rcases hcase with ⟨skipped, hselect, rfl⟩ |
      ⟨data, start, stop, edits, hselect, hrange, htable, rfl⟩
    · rw [List.filter_cons_of_neg (not_getsTable_of_error hselect)]
      exact ih hmem' hrest hplan' (fun m' hm' => hlimit m' (List.mem_cons_of_mem _ hm')) back
    · have hrange' := linear_range_of_range hrange
      obtain ⟨i, j, hnat, hlt, -⟩ := exists_range_of_marker hlinear hb hn hm
      obtain ⟨rfl, rfl⟩ := Prod.mk.inj (Except.ok.inj (hrange'.symm.trans hnat))
      have hj : j ≤ limit := Int.ofNat_le.1 (hlimit m List.mem_cons_self _ _ hnat)
      -- the markers that are left stand in front of this one
      have hbefore : ∀ m' ∈ rest, ∀ start stop,
          s.linear.range (.int m'.start) (.int m'.stop) = .ok (start, stop) → stop.index ≤ i :=
        fun m' hm' start stop hr =>
          range_le_of_stop_le hlinear hb (hmem' m' hm') hm (hfirst m' hm') hr hnat
      obtain ⟨g, hg, hsize, -⟩ := exists_geometry_layout data i
      have hslots : nativeSlots 0 limit ++ back =
          nativeSlots 0 i ++ (nativeSlots i j ++ (nativeSlots j limit ++ back)) := by
        rw [← List.append_assoc, nativeSlots_append (Nat.zero_le _) hlt.le, ← List.append_assoc,
          nativeSlots_append (Nat.zero_le _) hj]
      have hpre : ((nativeSlots 0 i).length : Int) = i := by
        rw [length_nativeSlots, Nat.sub_zero]
      have hstop : ((nativeSlots 0 i).length : Int) + (nativeSlots i j).length = j := by
        rw [hpre, length_nativeSlots]
        omega
      have hne : nativeSlots i j ≠ [] := by
        intro hnil
        have := congrArg List.length hnil
        rw [length_nativeSlots, List.length_nil] at this
        omega
      rw [← hpre] at hg
      rw [← hstop, ← hpre] at htable
      have hremoved : removals (nativeSlots 0 i ++ (nativeSlots i j ++
          (nativeSlots j limit ++ back))) edits = some [nativeSlots i j] :=
        removals_planMarkerTable hg hsize hne htable
      have hexec := @executeEdits_planMarkerTable _ _ (nativeSlots j limit ++ back) _ _ _ hg hsize
        hne htable
      have hmarker : markerSlots s m = nativeSlots i j := by
        rw [markerSlots, hnat]
        rfl
      rw [List.filter_cons_of_pos (getsTable_of_ok hselect), List.map_cons, hmarker, hslots]
      exact removals_append hremoved hexec (ih hmem' hrest hplan' hbefore _)

end Batch

/-- **A deletion takes away the literal of a marker and nothing else, exactly if the marker is not
broken up**: the batch of section tables can be carried out on the positions of the document, it has
one deletion for each marker that gets a table, from the last one to the first, and these deletions
all take away the slots of the marker's own characters, as many as its literal has code units, if
and only if the characters of each of these markers follow each other without a break. -/
theorem removals_planSectionTables_iff {s : Snapshot} {n : Nat}
    (hlinear : s.linear = s.body.linear s.revision) (hb : s.body.RunsApart)
    (hn : s.body.Within n) {sections : SectionData} {plan : SectionTablePlan}
    (h : planSectionTables sections s = .ok plan) :
    plan.rendered = (renderedMarkers sections s).map (·.name) ∧
      ∃ taken, removals (nativeSlots 0 n) plan.edits = some taken ∧
        (List.Forall₂ (RemovesLiteral s.linear) (renderedMarkers sections s).reverse taken ↔
          ∀ m ∈ renderedMarkers sections s, s.linear.Consecutive m.start m.stop) := by
  have htoken : ∀ m ∈ (TemplateScan.ofLinear s.linear).sectionMarkers,
      .sectionMarker m ∈ tokenize s.linear.text := fun m hm => mem_sectionTokens.1 hm
  have hsorted : (TemplateScan.ofLinear s.linear).sectionMarkers.reverse.Pairwise
      fun m m' => m'.stop ≤ m.start :=
    List.pairwise_reverse.2 (pairwise_sectionTokens s.linear.text)
  have hlimit : ∀ m ∈ (TemplateScan.ofLinear s.linear).sectionMarkers.reverse, ∀ start stop,
      s.linear.range (.int m.start) (.int m.stop) = .ok (start, stop) → stop.index ≤ n := by
    intro m hm start stop hr
    obtain ⟨i, j, hnat, -, hj⟩ :=
      exists_range_of_marker hlinear hb hn (htoken m (List.mem_reverse.1 hm))
    obtain ⟨rfl, rfl⟩ := Prod.mk.inj (Except.ok.inj (hr.symm.trans hnat))
    exact Int.ofNat_le.2 hj
  have htaken := removals_planMarkers hlinear hb hn
    (fun m hm => htoken m (List.mem_reverse.1 hm)) hsorted h hlimit []
  obtain ⟨hreport, -⟩ := report_planMarkers h
  rw [List.reverse_reverse] at hreport
  have hfilter : (TemplateScan.ofLinear s.linear).sectionMarkers.filter (getsTable sections) =
      renderedMarkers sections s := rfl
  rw [List.filter_reverse, hfilter, List.append_nil] at htaken
  refine ⟨congrArg Prod.fst hreport, _, htaken, ?_⟩
  rw [List.forall₂_map_right_iff, List.forall₂_same]
  simp only [List.mem_reverse]
  refine forall₂_congr fun m hm => ?_
  exact removesLiteral_markerSlots_iff hlinear hb hn (htoken m (List.mem_filter.1 hm).1)

theorem removals_twoMarkers :
    twoMarkers.linear = twoMarkers.body.linear twoMarkers.revision ∧
      twoMarkers.body.RunsApart ∧ twoMarkers.body.Within 28 ∧
      ∃ plan taken, planSectionTables firstSection twoMarkers = .ok plan ∧
        plan.rendered = [['A']] ∧ removals (nativeSlots 0 28) plan.edits = some taken ∧
        List.Forall₂ (RemovesLiteral twoMarkers.linear)
          (renderedMarkers firstSection twoMarkers).reverse taken := by
  have hb : twoMarkers.body.RunsApart := laidOut_twoMarkers.ordered.runsApart
  have hn : twoMarkers.body.Within 28 := by decide
  have hplan : (fun plan : SectionTablePlan => plan.rendered) <$>
      planSectionTables firstSection twoMarkers = .ok [['A']] := by cbv
  obtain ⟨plan, hplan, hrendered⟩ := map_eq_ok_iff.1 hplan
  obtain ⟨-, taken, htaken, hiff⟩ := removals_planSectionTables_iff rfl hb hn hplan
  exact ⟨rfl, hb, hn, plan, taken, hplan, hrendered, htaken,
    hiff.2 fun m _ => consecutive_of_runs_eq rfl m.start m.stop⟩

/-- A document of one line with a section marker that has an inline object inside it. -/
def brokenMarker : Snapshot :=
  .ofBody ⟨[.paragraph ⟨.int 1, .int 16, [
    .run ⟨.int 1, .int 12, sectionOpening ++ ['A'], .obj []⟩,
    .inline ⟨.inlineObjectElement, .int 12, .int 13⟩,
    .run ⟨.int 13, .int 16, [']', ']', '\n'], .obj []⟩], .str "NORMAL_TEXT"⟩]⟩

/-- The inline object inside a section marker is deleted with the marker. -/
theorem not_removesLiteral_brokenMarker :
    brokenMarker.linear = brokenMarker.body.linear brokenMarker.revision ∧
      brokenMarker.body.RunsApart ∧ brokenMarker.body.Within 16 ∧
      ∃ plan taken, planSectionTables firstSection brokenMarker = .ok plan ∧
        removals (nativeSlots 0 16) plan.edits = some taken ∧
        ¬ List.Forall₂ (RemovesLiteral brokenMarker.linear)
          (renderedMarkers firstSection brokenMarker).reverse taken := by
  have hplan : (fun plan : SectionTablePlan => removals (nativeSlots 0 16) plan.edits) <$>
      planSectionTables firstSection brokenMarker = .ok (some [nativeSlots 1 15]) := by cbv
  obtain ⟨plan, hplan, htaken⟩ := map_eq_ok_iff.1 hplan
  have hmarkers : ((renderedMarkers firstSection brokenMarker).reverse.map (·.raw.units)) =
      [13] := by cbv
  obtain ⟨m, hm, hunits⟩ := List.map_eq_singleton_iff.1 hmarkers
  have hb : brokenMarker.body.RunsApart := by
    unfold Body.RunsApart
    decide
  refine ⟨rfl, hb, by decide, plan, _, hplan, htaken, fun h => ?_⟩
  rw [hm] at h
  have hlength := (List.forall₂_cons.1 h).1.length_eq
  rw [length_nativeSlots, hunits] at hlength
  omega

end DocTemplate
