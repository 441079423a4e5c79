import DocTemplate.Proofs.Marker.Tokens

/-!
# No marker is lost

Every section marker and every variable that is written in a text outside of what the earlier
searches take is found, up to its end (`markersFound`).

What is written may overlap: in `[[section:a[[section:b]]` two section markers share their end. The
search finds one of them, the one that starts first. It has the end of every tag that starts within
it, because the first closing character behind the opening ends them all
(`exists_mem_findInGaps_of_tagAt`).
-/

namespace DocTemplate

/-- None of the ranges shares an offset with the one from `start` up to `stop`. -/
def ClearOf (taken : List (Int × Int)) (start stop : Nat) : Prop :=
  ∀ r ∈ taken, r.2 ≤ (start : Int) ∨ (stop : Int) ≤ r.1

/-- The matches of the search for variables, those without a name and the tags of asset sections
included. -/
def variableMatches (t : Text) : List (Text.Found Text) :=
  findInGaps (tag variableOpening '\x7d') t (markerRanges t)

/-- A match with this content is no variable: it is a tag of an asset section, or nothing but blanks
stands in front of the first colon. -/
def IsNoVariable (content : Text) : Prop :=
  assetOpenStart <+: content.trim ∨ assetCloseStart <+: content.trim ∨
    Text.blank (content.takeWhile (· ≠ ':')) = true

/-! ## Tags in gaps -/

section Gaps

variable {opening t name : Text} {closing : Char} {start stop : Nat} {taken : List (Int × Int)}

theorem TagAt.slice_isSome (h : TagAt opening closing t start stop name) {last : Nat}
    (hle : stop ≤ last) : (tag opening closing (t.slice start last)).isSome = true := by
  have heq := h.stop_eq
  have hpre : opening ++ name ++ [closing, closing] <+: t.slice start last :=
    List.prefix_take_iff.2 ⟨h.stands, by omega⟩
  obtain ⟨rest, hrest⟩ := hpre
  rw [tag_eq_some_iff.2 ⟨⟨h.closing_notMem, h.name_ne_nil⟩, rfl, rest, hrest.symm⟩]
  rfl

theorem tagAt_of_mem_findInGaps {f : Text.Found Text}
    (h : f ∈ findInGaps (tag opening closing) t taken) :
    TagAt opening closing t f.start f.stop f.value := by
  obtain ⟨⟨hc, hne⟩, hlt, hstop, rest, hocc⟩ := eq_append_of_mem_findInGaps h
  refine ⟨hne, hc, ⟨rest, ?_⟩, ?_⟩
  · conv_rhs => rw [hocc]
    rw [List.drop_left' (List.length_take_of_le hlt.le)]
  · rw [hstop, List.length_append, List.length_append]
    rfl

/-- A tag that touches nothing that is taken stands in one match, and ends where that one ends. -/
theorem exists_mem_findInGaps_of_tagAt (hopening : closing ∉ opening)
    (h : TagAt opening closing t start stop name) (hclear : ClearOf taken start stop) :
    ∃ f ∈ findInGaps (tag opening closing) t taken, f.start ≤ start ∧ f.stop = stop := by
  obtain ⟨hlt, hle⟩ := h.bounds
  obtain ⟨⟨first, last⟩, hg, hfirst, hlast⟩ :=
    exists_mem_gaps (show start < stop by omega) hle hclear
  simp only at hfirst hlast
  have hsome : (tag opening closing ((t.slice first last).drop (start - first))).isSome = true := by
    rw [Text.drop_slice, Nat.add_sub_cancel' hfirst]
    exact h.slice_isSome hlast
  have hlength : start - first < (t.slice first last).length := by
    rw [Text.length_slice]
    omega
  obtain ⟨f, hf, h1, h2⟩ :=
    Text.exists_mem_scanFrom (fits_tag _ _) first (Nat.zero_le _) hlength hsome
  have hmem : f ∈ findInGaps (tag opening closing) t taken :=
    mem_findInGaps.2 ⟨(first, last), hg, hf⟩
  have hstart : f.start ≤ start := by omega
  refine ⟨f, hmem, hstart, ?_⟩
  exact (h.stop_eq_of_overlap hopening hopening (tagAt_of_mem_findInGaps hmem) hstart
    (by omega)).symm

/-- There is only one such match. -/
theorem existsUnique_mem_findInGaps (hopening : closing ∉ opening)
    (ht : ∀ r ∈ taken, r.1 ≤ r.2) (h : TagAt opening closing t start stop name)
    (hclear : ClearOf taken start stop) :
    ∃! f, f ∈ findInGaps (tag opening closing) t taken ∧ f.start ≤ start ∧ f.stop = stop := by
  have hbounds := h.bounds
  obtain ⟨f, hf, hstart, hstop⟩ := exists_mem_findInGaps_of_tagAt hopening h hclear
  refine ⟨f, ⟨hf, hstart, hstop⟩, fun g ⟨hg, hgstart, hgstop⟩ => ?_⟩
  exact Text.eq_of_overlap (pairwise_findInGaps (fits_tag _ _) ht) hg hf (i := start)
    (by omega) (by omega)

end Gaps

/-! ## What the later searches leave out -/

/-- A range of a text stands outside of its asset sections. -/
def OutsideBlocks (t : Text) (start stop : Nat) : Prop :=
  ∀ b, .assetBlock b ∈ tokenize t → b.stop ≤ start ∨ stop ≤ b.start

/-- A range of a text stands outside of its section markers. -/
def OutsideMarkers (t : Text) (start stop : Nat) : Prop :=
  ∀ m, .sectionMarker m ∈ tokenize t → m.stop ≤ start ∨ stop ≤ m.start

section Taken

variable {t : Text} {start stop : Nat}

theorem clearOf_blockRanges_iff :
    ClearOf (blockRanges t) start stop ↔ OutsideBlocks t start stop := by
  constructor
  · intro h b hb
    have := h _ (mem_rangesOfBlocks.2 ⟨b, assetBlock_mem_tokenize.1 hb, rfl⟩)
    omega
  · intro h r hr
    obtain ⟨b, hb, rfl⟩ := mem_rangesOfBlocks.1 hr
    have := h b (assetBlock_mem_tokenize.2 hb)
    omega

theorem clearOf_markerRanges_iff :
    ClearOf (markerRanges t) start stop ↔
      OutsideBlocks t start stop ∧ OutsideMarkers t start stop := by
  rw [← clearOf_blockRanges_iff, ClearOf, markerRanges, List.forall_mem_append]
  refine and_congr_right fun _ => ⟨fun h m hm => ?_, fun h r hr => ?_⟩
  · have := h _ (mem_rangesOfMarkers.2 ⟨m, sectionMarker_mem_tokenize.1 hm, rfl⟩)
    omega
  · obtain ⟨m, hm, rfl⟩ := mem_rangesOfMarkers.1 hr
    have := h m (sectionMarker_mem_tokenize.2 hm)
    omega

end Taken

/-! ## Variables among the matches -/

theorem name_eq_nil_iff {content : Text} :
    (splitContent content).1 = [] ↔ Text.blank (content.takeWhile (· ≠ ':')) = true := by
  have hcolon : ∀ c, isBlank c = true → decide (c ≠ ':') = true := by
    intro c hc
    refine decide_eq_true ?_
    rintro rfl
    exact absurd hc (by decide)
  rw [← Text.blank_takeWhile_trim hcolon, Text.blank, List.isEmpty_iff]
  rfl

theorem isNoVariable_iff {content : Text} :
    IsNoVariable content ↔ isAssetTag content.trim = true ∨ (splitContent content).1 = [] := by
  rw [IsNoVariable, isAssetTag, Bool.or_eq_true, Text.isSome_stripStart_iff,
    Text.isSome_stripStart_iff, name_eq_nil_iff, or_assoc]

/-- A match is a variable of the text unless its content says that it is none. -/
theorem exists_var_iff {t : Text} {f : Text.Found Text} (hf : f ∈ variableMatches t) :
    (∃ v, .var v ∈ tokenize t ∧ v.start = f.start ∧ v.stop = f.stop) ↔ ¬ IsNoVariable f.value := by
  simp only [var_mem_tokenize, mem_findVariables]
  rw [isNoVariable_iff, not_or, Bool.not_eq_true]
  constructor
  · rintro ⟨v, ⟨g, hg, hvar⟩, hstart, hstop⟩
    obtain ⟨hasset, hname, rfl⟩ := variableOf_eq_some_iff.1 hvar
    have hlt := (tagAt_of_mem_findInGaps hf).bounds
    simp only at hstart hstop
    obtain rfl := Text.eq_of_overlap (pairwise_findInGaps (fits_tag _ _) le_of_mem_markerRanges)
      hg hf (i := f.start) (by omega) (by omega)
    exact ⟨hasset, hname⟩
  · rintro ⟨hasset, hname⟩
    exact ⟨_, ⟨f, hf, variableOf_eq_some_iff.2 ⟨hasset, hname, rfl⟩⟩, rfl, rfl⟩

/-! ## All of them are found -/

/-- The section markers and variables of a text are all that are written in it, and no others. -/
structure MarkersFound (t : Text) : Prop where
  /-- A section marker that is written outside of the asset sections ends with exactly one that is
  found, and stands in it. -/
  marker_found : ∀ start stop name, TagAt sectionOpening ']' t start stop name →
    OutsideBlocks t start stop →
      ∃! m, .sectionMarker m ∈ tokenize t ∧ m.start ≤ start ∧ m.stop = stop
  /-- A section marker that is found is written there, outside of the asset sections. -/
  marker_written : ∀ m, .sectionMarker m ∈ tokenize t →
    OutsideBlocks t m.start m.stop ∧
      ∃ name, TagAt sectionOpening ']' t m.start m.stop name ∧ m.name = name.trim
  /-- A placeholder that is written outside of the asset sections and the section markers ends with
  exactly one match of the search for variables, and stands in it. -/
  match_found : ∀ start stop content, TagAt variableOpening '\x7d' t start stop content →
    OutsideBlocks t start stop → OutsideMarkers t start stop →
      ∃! f, f ∈ variableMatches t ∧ f.start ≤ start ∧ f.stop = stop
  /-- A match is a placeholder, and it is a variable of the text unless its content says that it is
  none. -/
  match_var : ∀ f ∈ variableMatches t,
    TagAt variableOpening '\x7d' t f.start f.stop f.value ∧
      ((∃ v, .var v ∈ tokenize t ∧ v.start = f.start ∧ v.stop = f.stop) ↔ ¬ IsNoVariable f.value)
  /-- A variable that is found is a match, and it is written there, outside of the asset sections
  and the section markers. -/
  var_written : ∀ v, .var v ∈ tokenize t →
    OutsideBlocks t v.start v.stop ∧ OutsideMarkers t v.start v.stop ∧
      ∃ f ∈ variableMatches t, v.start = f.start ∧ v.stop = f.stop ∧
        (v.name, v.declaredType) = splitContent f.value

/-- **No marker is lost.** -/
theorem markersFound (t : Text) : MarkersFound t where
  marker_found start stop name h hblocks := by
    obtain ⟨f, ⟨hf, hstart, hstop⟩, hunique⟩ := existsUnique_mem_findInGaps (by decide)
      le_of_mem_blockRanges h (clearOf_blockRanges_iff.2 hblocks)
    refine ⟨_, ⟨sectionMarker_mem_tokenize.2 (mem_findSectionMarkers.2 ⟨f, hf, rfl⟩), hstart,
      hstop⟩, ?_⟩
    rintro m ⟨hm, hmstart, hmstop⟩
    obtain ⟨g, hg, rfl⟩ := mem_findSectionMarkers.1 (sectionMarker_mem_tokenize.1 hm)
    rw [hunique g ⟨hg, hmstart, hmstop⟩]
  marker_written m hm := by
    obtain ⟨f, hf, rfl⟩ := mem_findSectionMarkers.1 (sectionMarker_mem_tokenize.1 hm)
    refine ⟨clearOf_blockRanges_iff.1 ?_, f.value, tagAt_of_mem_findInGaps hf, rfl⟩
    exact apart_of_mem_findInGaps (fits_tag _ _) le_of_mem_blockRanges hf
  match_found start stop content h hblocks hmarkers :=
    existsUnique_mem_findInGaps (by decide) le_of_mem_markerRanges h
      (clearOf_markerRanges_iff.2 ⟨hblocks, hmarkers⟩)
  match_var f hf := ⟨tagAt_of_mem_findInGaps hf, exists_var_iff hf⟩
  var_written v hv := by
    obtain ⟨f, hf, hvar⟩ := mem_findVariables.1 (var_mem_tokenize.1 hv)
    obtain ⟨-, -, rfl⟩ := variableOf_eq_some_iff.1 hvar
    have hclear : ClearOf (markerRanges t) f.start f.stop :=
      apart_of_mem_findInGaps (fits_tag _ _) le_of_mem_markerRanges hf
    obtain ⟨hblocks, hmarkers⟩ := clearOf_markerRanges_iff.1 hclear
    exact ⟨hblocks, hmarkers, f, hf, rfl, rfl, rfl⟩

end DocTemplate
