import DocTemplate.Proofs.Marker.Coverage
import DocTemplate.Proofs.Plan.Placeholders

/-!
# The variables of a text of placeholders

In a text whose braces all belong to placeholders, the variables that are found are exactly the
placeholders that have a name and hold no section marker (`mem_textVariables`).

A placeholder that holds a section marker is no variable, since variables are looked for outside of
the markers only. Every other placeholder stands in a gap as a whole, because a marker that reaches
into it would have to cross one of its braces.
-/

namespace DocTemplate

/-- A section marker stands in a text. -/
def HoldsMarker (t : Text) : Prop :=
  ∃ k, (tag sectionOpening ']' (t.drop k)).isSome = true

/-- A text in which variables can be filled one after another: its braces all belong to
placeholders, no placeholder is the tag of an asset section, and no section marker holds a brace. -/
structure Substitutable (t : Text) : Prop where
  placeholdersOnly : PlaceholdersOnly t
  isAssetTag_eq : ∀ p c q, t = p ++ (braced c ++ q) → IsContent c → isAssetTag c.trim = false
  isBrace_eq : ∀ m, .sectionMarker m ∈ tokenize t → ∀ x ∈ m.raw, isBrace x = false

/-! ## Occurrences of placeholders -/

section Occurrences

variable {t c d p p' q q' : Text}

theorem isContent_of_occurrence (ht : PlaceholdersOnly t) (hc : '\x7d' ∉ c)
    (h : t = p ++ (braced c ++ q)) : IsContent c := by
  obtain ⟨ps, hps, rfl⟩ := exists_render ht
  obtain ⟨as, bs, rfl, -, -⟩ := exists_hole_of_render_eq hps hc h
  exact hps (.hole c) (by simp)

/-- Of two placeholders that overlap, the second is the first. -/
theorem occurrence_unique (ht : PlaceholdersOnly t) (hc : '\x7d' ∉ c) (hd : '\x7d' ∉ d)
    (h : t = p ++ (braced c ++ q)) (h' : t = p' ++ (braced d ++ q')) (hle : p.length ≤ p'.length)
    (hlt : p'.length < p.length + (braced c).length) : p = p' ∧ c = d := by
  have hpre : p <+: p' := by
    have hp : p <+: t := ⟨_, h.symm⟩
    have hp' : p' <+: t := ⟨_, h'.symm⟩
    exact List.prefix_of_prefix_length_le hp hp' hle
  obtain ⟨r, rfl⟩ := hpre
  have htail : braced c ++ q = r ++ (braced d ++ q') := by
    rw [← List.append_cancel_left_eq p, ← h, h', List.append_assoc]
  rcases occurrence_cases (isContent_of_occurrence ht hc h) hd htail with
    ⟨rfl, rfl, -⟩ | ⟨r, rfl, -⟩
  · exact ⟨(List.append_nil p).symm, rfl⟩
  · simp only [List.length_append] at hlt
    omega

theorem slice_of_occurrence (h : t = p ++ (braced c ++ q)) :
    t.slice p.length (p.length + (braced c).length) = braced c := by
  rw [h, Text.slice_append_right, List.take_left]

theorem drop_of_occurrence (h : t = p ++ (braced c ++ q)) {k : Nat} (hk : k ≤ c.length) :
    t.drop (p.length + (2 + k)) = c.drop k ++ '\x7d' :: '\x7d' :: q := by
  rw [h, List.drop_length_add_append, braced_append, Nat.add_comm 2, List.drop_succ_cons,
    List.drop_succ_cons, List.drop_append_of_le_length hk]

theorem tag_variable_iff {size : Nat} :
    tag variableOpening '\x7d' t = some (c, size) ↔
      ('\x7d' ∉ c ∧ c ≠ []) ∧ size = (braced c).length ∧ ∃ q, t = braced c ++ q := by
  have hlength : variableOpening.length + c.length + 2 = (braced c).length := by
    rw [length_braced]
    simp only [variableOpening, List.length_cons, List.length_nil]
    omega
  rw [tag_eq_some_iff, hlength]
  rfl

theorem tag_sectionOpening_isSome_iff :
    (tag sectionOpening ']' t).isSome = true ↔
      ∃ name q, (']' ∉ name ∧ name ≠ []) ∧ t = sectionOpening ++ name ++ [']', ']'] ++ q := by
  rw [Option.isSome_iff_exists]
  constructor
  · rintro ⟨⟨name, size⟩, h⟩
    obtain ⟨hname, -, q, rfl⟩ := tag_eq_some_iff.1 h
    exact ⟨name, q, hname, rfl⟩
  · rintro ⟨name, q, hname, rfl⟩
    exact ⟨_, tag_eq_some_iff.2 ⟨hname, rfl, q, rfl⟩⟩

end Occurrences

/-! ## Section markers among placeholders -/

section Markers

variable {t : Text}

theorem findAssetBlocks_eq_nil (ht : Substitutable t) : findAssetBlocks t = [] := by
  refine List.eq_nil_iff_forall_not_mem.2 fun b hb => ?_
  obtain ⟨f, hf, rfl⟩ := List.mem_map.1 hb
  obtain ⟨k, size, -, -, -, hfind⟩ := Text.find_of_mem_scanFrom hf
  obtain ⟨openSize, htag, -, -⟩ := assetSection_eq_some_iff.1 hfind
  obtain ⟨⟨hclose, -⟩, -, q, hdrop⟩ := tag_eq_some_iff.1 htag
  -- the opening tag is a placeholder that starts like one
  have hocc : t = t.take k ++ (braced (assetOpenStart ++ f.value.1) ++ q) := by
    conv_lhs => rw [← List.take_append_drop k t, hdrop]
    simp [assetOpening, variableOpening, braced]
  have hopen : '\x7d' ∉ assetOpenStart ++ f.value.1 := by
    rw [List.mem_append, not_or]
    exact ⟨by decide, hclose⟩
  have hasset := ht.isAssetTag_eq _ _ _ hocc
    (isContent_of_occurrence ht.placeholdersOnly hopen hocc)
  rw [Text.trim_append _ (by decide) (by simp [assetOpenStart, isBlank])
    (by simp [assetOpenStart, isBlank]), isAssetTag, Text.stripStart_append] at hasset
  simp at hasset

theorem markerRanges_eq (ht : Substitutable t) :
    markerRanges t = rangesOfMarkers (sectionMarkers t) := by
  rw [markerRanges, blockRanges, findAssetBlocks_eq_nil ht]
  rfl

/-- Where a section marker stands, one is found. -/
theorem exists_mem_sectionMarkers (ht : Substitutable t) {k : Nat}
    (h : (tag sectionOpening ']' (t.drop k)).isSome = true) :
    ∃ m ∈ sectionMarkers t, m.start ≤ k ∧ k < m.stop := by
  obtain ⟨⟨name, size⟩, htag⟩ := Option.isSome_iff_exists.1 h
  have hmarker : TagAt sectionOpening ']' t k (k + size) name := tagAt_iff.2 ⟨size, htag, rfl⟩
  have hclear : ClearOf (blockRanges t) k (k + size) := by
    rw [blockRanges, findAssetBlocks_eq_nil ht]
    exact fun r hr => absurd hr List.not_mem_nil
  obtain ⟨f, hf, hstart, hstop⟩ := exists_mem_findInGaps_of_tagAt (by decide) hmarker hclear
  have hbounds := hmarker.bounds
  exact ⟨_, mem_findSectionMarkers.2 ⟨f, hf, rfl⟩, hstart, show k < f.stop by omega⟩

theorem mem_slice {x : Char} {i start stop : Nat} (h : t[i]? = some x) (hle : start ≤ i)
    (hlt : i < stop) : x ∈ t.slice start stop := by
  refine List.mem_of_getElem? (i := i - start) ?_
  rw [Text.slice, List.getElem?_take_of_lt (by omega), List.getElem?_drop]
  rwa [Nat.add_sub_cancel' hle]

/-- A section marker that reaches into a placeholder stands between its braces. -/
theorem holdsMarker_of_overlap (ht : Substitutable t) {m : SectionMarker}
    (hm : m ∈ sectionMarkers t) {p c q : Text} (h : t = p ++ (braced c ++ q))
    (h1 : m.start < p.length + (braced c).length) (h2 : p.length < m.stop) : HoldsMarker c := by
  obtain ⟨-, -, hraw⟩ := standsIn_of_mem_findSectionMarkers hm
  have hfree := ht.isBrace_eq m (mem_tokenize.2 (.inr (.inl ⟨m, hm, rfl⟩)))
  -- no brace of the placeholder stands in the marker
  have hapart : ∀ i x, t[i]? = some x → isBrace x = true → i < m.start ∨ m.stop ≤ i := by
    intro i x hi hx
    by_contra hin
    have := hfree x (hraw ▸ mem_slice hi (by omega) (by omega))
    rw [hx] at this
    exact absurd this (by decide)
  have hchar : ∀ i x, (braced c ++ q)[i]? = some x → isBrace x = true →
      p.length + i < m.start ∨ m.stop ≤ p.length + i := fun i x hi hx =>
    hapart _ x (by rw [h, List.getElem?_append_right (by omega), Nat.add_sub_cancel_left, hi]) hx
  have hopen := hchar 0 '\x7b' rfl (by decide)
  have hopen' := hchar 1 '\x7b' rfl (by decide)
  have hclose := hchar (2 + c.length) '\x7d' (by simp [braced_append, Nat.add_comm 2]) (by decide)
  have hclose' := hchar (3 + c.length) '\x7d' (by simp [braced_append, Nat.add_comm 3]) (by decide)
  obtain ⟨f, hf, rfl⟩ := mem_findSectionMarkers.1 hm
  obtain ⟨hname, hlt, hstop, rest, hocc⟩ := eq_append_of_mem_findInGaps hf
  rw [length_braced] at h1
  simp only at h1 h2 hopen hopen' hclose hclose'
  -- so the whole tag stands in the content
  obtain ⟨k, hk⟩ : ∃ k, f.start = p.length + (2 + k) :=
    ⟨f.start - (p.length + 2), by omega⟩
  have hcontent : t.drop f.start = c.drop k ++ '\x7d' :: '\x7d' :: q := by
    rw [hk, drop_of_occurrence h (by omega)]
  have hmarker : t.drop f.start = sectionOpening ++ f.value ++ [']', ']'] ++ rest := by
    conv_lhs => rw [hocc]
    rw [List.drop_left' (List.length_take_of_le hlt.le)]
  have hpre : sectionOpening ++ f.value ++ [']', ']'] <+: c.drop k := by
    refine List.prefix_of_prefix_length_le ⟨rest, hmarker.symm⟩ ⟨_, hcontent.symm⟩ ?_
    simp only [List.length_append, List.length_cons, List.length_nil, List.length_drop]
    omega
  obtain ⟨r, hr⟩ := hpre
  exact ⟨k, tag_sectionOpening_isSome_iff.2 ⟨f.value, r, hname, hr.symm⟩⟩

/-- A placeholder holds a section marker if one reaches into it. -/
theorem holdsMarker_iff_overlap (ht : Substitutable t) {p c q : Text}
    (h : t = p ++ (braced c ++ q)) :
    HoldsMarker c ↔
      ∃ m ∈ sectionMarkers t, m.start < p.length + (braced c).length ∧ p.length < m.stop := by
  constructor
  · rintro ⟨k, hk⟩
    obtain ⟨name, rest, hname, hdrop⟩ := tag_sectionOpening_isSome_iff.1 hk
    have hle : k ≤ c.length := by
      have := congrArg List.length hdrop
      simp only [List.length_drop, List.length_append, List.length_cons] at this
      omega
    have htag : (tag sectionOpening ']' (t.drop (p.length + (2 + k)))).isSome = true := by
      rw [drop_of_occurrence h hle, hdrop, List.append_assoc]
      exact tag_sectionOpening_isSome_iff.2 ⟨name, _, hname, rfl⟩
    obtain ⟨m, hm, h1, h2⟩ := exists_mem_sectionMarkers ht htag
    exact ⟨m, hm, by rw [length_braced]; omega, by omega⟩
  · rintro ⟨m, hm, h1, h2⟩
    exact holdsMarker_of_overlap ht hm h h1 h2

end Markers

/-! ## The variables -/

/-- A match for a variable is a placeholder. -/
theorem occurrence_of_mem_findInGaps {t : Text} {taken : List (Int × Int)} {f : Text.Found Text}
    (h : f ∈ findInGaps (tag variableOpening '\x7d') t taken) :
    ∃ p q, t = p ++ (braced f.value ++ q) ∧ ('\x7d' ∉ f.value ∧ f.value ≠ []) ∧
      f.start = p.length ∧ f.stop = p.length + (braced f.value).length := by
  obtain ⟨hc, hlt, hstop, q, hocc⟩ := eq_append_of_mem_findInGaps h
  have hlength : (t.take f.start).length = f.start := List.length_take_of_le hlt.le
  refine ⟨t.take f.start, q, hocc, hc, hlength.symm, ?_⟩
  rw [hstop, hlength, length_braced]
  simp only [variableOpening, List.length_cons, List.length_nil]
  omega

/-- The variable that a placeholder is which stands at offset `start` and holds `c`. -/
def variableAt (start : Nat) (c : Text) : Variable :=
  ⟨(splitContent c).1, braced c, .ofDeclared (splitContent c).2, start,
    start + (braced c).length, (splitContent c).2⟩

/-- A placeholder that holds no section marker stands in a gap, so the search comes across it. -/
theorem exists_mem_findInGaps {t p c q : Text} (ht : Substitutable t)
    (hocc : t = p ++ (braced c ++ q)) (hc : '\x7d' ∉ c ∧ c ≠ []) (hmarker : ¬ HoldsMarker c) :
    ∃ f ∈ findInGaps (tag variableOpening '\x7d') t (markerRanges t),
      f.start ≤ p.length ∧ p.length < f.stop := by
  have hplaceholder : TagAt variableOpening '\x7d' t p.length (p.length + (braced c).length) c :=
    tagAt_iff.2 ⟨_, by rw [hocc, List.drop_left]; exact tag_variable_iff.2 ⟨hc, rfl, q, rfl⟩, rfl⟩
  have hclear : ClearOf (markerRanges t) p.length (p.length + (braced c).length) := by
    intro r hr
    rw [markerRanges_eq ht] at hr
    obtain ⟨m, hm, rfl⟩ := mem_rangesOfMarkers.1 hr
    by_contra hin
    refine hmarker ((holdsMarker_iff_overlap ht hocc).2 ⟨m, hm, ?_, ?_⟩)
    · omega
    · omega
  obtain ⟨f, hf, hstart, hstop⟩ :=
    exists_mem_findInGaps_of_tagAt (by decide) hplaceholder hclear
  have hbounds := hplaceholder.bounds
  exact ⟨f, hf, hstart, by omega⟩

/-- The variables of a text of placeholders are the placeholders that have a name and hold no
section marker. -/
theorem mem_textVariables {t : Text} (ht : Substitutable t) {v : Variable} :
    v ∈ textVariables t ↔ ∃ p c q, t = p ++ (braced c ++ q) ∧ ('\x7d' ∉ c ∧ c ≠ []) ∧
      ¬ HoldsMarker c ∧ (splitContent c).1 ≠ [] ∧ v = variableAt p.length c := by
  rw [mem_findVariables]
  constructor
  · rintro ⟨f, hf, hvar⟩
    obtain ⟨p, q, hocc, hc, hstart, hstop⟩ := occurrence_of_mem_findInGaps hf
    obtain ⟨-, hname, rfl⟩ := variableOf_eq_some_iff.1 hvar
    refine ⟨p, f.value, q, hocc, hc, ?_, hname, ?_⟩
    · -- variables are looked for outside of the section markers only
      intro hmarker
      obtain ⟨m, hm, h1, h2⟩ := (holdsMarker_iff_overlap ht hocc).1 hmarker
      have := apart_of_mem_findInGaps (fits_tag _ _) le_of_mem_markerRanges hf _
        (List.mem_append_right _ (mem_rangesOfMarkers.2 ⟨m, hm, rfl⟩))
      simp only at this
      omega
    · rw [hstart, hstop, slice_of_occurrence hocc]
      rfl
  · rintro ⟨p, c, q, hocc, hc, hmarker, hname, rfl⟩
    obtain ⟨f, hf, h1, h2⟩ := exists_mem_findInGaps ht hocc hc hmarker
    obtain ⟨p', q', hocc', hc', hstart, hstop⟩ := occurrence_of_mem_findInGaps hf
    obtain ⟨rfl, hvalue⟩ := occurrence_unique ht.placeholdersOnly hc'.1 hc.1 hocc' hocc
      (by omega) (by omega)
    refine ⟨f, hf, variableOf_eq_some_iff.2 ⟨?_, ?_, ?_⟩⟩
    · exact ht.isAssetTag_eq _ _ _ hocc' (isContent_of_occurrence ht.placeholdersOnly hc'.1 hocc')
    · rwa [hvalue]
    · rw [hstart, hstop, slice_of_occurrence hocc', hvalue]
      rfl

end DocTemplate
