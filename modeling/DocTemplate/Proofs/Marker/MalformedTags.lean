import DocTemplate.Marker.Diagnostics
import DocTemplate.Proofs.Marker.Blocks
import DocTemplate.Proofs.Marker.Coverage

/-!
# Reports of malformed tags

What the reports on a text say is so (`tagsReported`): in increasing order, each of them stands at
a tag outside of the asset sections, an opening tag that is reported has no closing tag behind it,
and in front of a closing tag that is reported every opening tag of its name stands in an asset
section. Conversely every tag that stands outside of the asset sections ends with one that is
reported.

The two searches for tags look at gaps only. What they say about the whole text comes from the asset
sections being the leftmost balanced blocks: an opening tag with a closing tag of its name behind
it stands in one of them (`exists_mem_findAssetBlocks`).

The search for variables passes over a placeholder whose content, when it is trimmed, starts like
that of a tag. Not every such placeholder holds a tag, and the tag may be hidden by a longer one
that starts in front of the placeholder, so some of them are in no report
(`leftOversReported_iff`).
-/

namespace DocTemplate

/-- What a tag with this issue starts with. -/
def TagIssue.opening : TagIssue → Text
  | .unterminated => assetOpening
  | .unopened => assetClosing

/-- The tags with this issue in the gaps that the asset sections of a text leave. -/
def tagMatches (t : Text) (issue : TagIssue) : List (Text.Found Text) :=
  findInGaps (tag issue.opening '\x7d') t (blockRanges t)

/-- What is reported of a tag that is found. -/
def MalformedTag.ofFound (issue : TagIssue) (f : Text.Found Text) : MalformedTag :=
  ⟨f.value.trim, f.start, issue⟩

/-! ## The tags that are found -/

section Matches

variable {t : Text} {m : MalformedTag} {issue : TagIssue} {f : Text.Found Text}

theorem close_notMem_opening (issue : TagIssue) : '\x7d' ∉ issue.opening := by
  cases issue <;> decide

theorem mem_malformedTags (issue : TagIssue) {start stop : Nat} :
    m ∈ malformedTags issue.opening issue t start stop ↔
      ∃ f ∈ t.scanWithin (tag issue.opening '\x7d') start stop, .ofFound issue f = m :=
  List.mem_map

theorem mem_findMalformedTags :
    m ∈ findMalformedTags t ↔ ∃ issue, ∃ f ∈ tagMatches t issue, .ofFound issue f = m := by
  have hgap : ∀ g : Nat × Nat,
      (m ∈ malformedTags assetOpening .unterminated t g.1 g.2 ∨
          m ∈ malformedTags assetClosing .unopened t g.1 g.2) ↔
        ∃ issue, ∃ f ∈ t.scanWithin (tag issue.opening '\x7d') g.1 g.2, .ofFound issue f = m := by
    intro g
    constructor
    · rintro (h | h)
      · exact ⟨.unterminated, (mem_malformedTags .unterminated).1 h⟩
      · exact ⟨.unopened, (mem_malformedTags .unopened).1 h⟩
    · rintro ⟨issue, h⟩
      cases issue with
      | unterminated => exact .inl ((mem_malformedTags .unterminated).2 h)
      | unopened => exact .inr ((mem_malformedTags .unopened).2 h)
  simp only [findMalformedTags, List.mem_mergeSort, List.mem_flatMap, List.mem_append, hgap,
    tagMatches, mem_findInGaps]
  constructor
  · rintro ⟨g, hg, issue, f, hf, h⟩
    exact ⟨issue, f, ⟨g, hg, hf⟩, h⟩
  · rintro ⟨issue, f, ⟨g, hg, hf⟩, h⟩
    exact ⟨g, hg, issue, f, hf, h⟩

theorem tagAt_of_mem_tagMatches (h : f ∈ tagMatches t issue) :
    TagAt issue.opening '\x7d' t f.start f.stop f.value :=
  tagAt_of_mem_findInGaps h

theorem outside_of_mem_tagMatches (h : f ∈ tagMatches t issue) :
    OutsideBlocks t f.start f.stop :=
  clearOf_blockRanges_iff.1 (apart_of_mem_findInGaps (fits_tag _ _) le_of_mem_blockRanges h)

/-- A tag outside of the asset sections ends with exactly one that is found. -/
theorem existsUnique_mem_tagMatches {start stop : Nat} {name : Text}
    (h : TagAt issue.opening '\x7d' t start stop name) (houtside : OutsideBlocks t start stop) :
    ∃! f, f ∈ tagMatches t issue ∧ f.start ≤ start ∧ f.stop = stop :=
  existsUnique_mem_findInGaps (close_notMem_opening issue) le_of_mem_blockRanges h
    (clearOf_blockRanges_iff.2 houtside)

end Matches

/-! ## The order of the reports -/

section Order

variable {t : Text} {issue issue' : TagIssue}

/-- The third character tells an opening tag from a closing one. -/
theorem issue_eq_of_tagAt {start stop stop' : Nat} {name name' : Text}
    (h : TagAt issue.opening '\x7d' t start stop name)
    (h' : TagAt issue'.opening '\x7d' t start stop' name') : issue = issue' := by
  have hthird : ∀ (issue : TagIssue) (rest : Text), (issue.opening ++ rest)[2]? =
      issue.opening[2]? := by
    intro issue rest
    cases issue <;> rfl
  have hchar := h.getElem?_eq (i := 2) h.bounds.1
  rw [h'.getElem?_eq h'.bounds.1, List.append_assoc, List.append_assoc, hthird, hthird] at hchar
  cases issue with
  | unterminated =>
    cases issue' with
    | unterminated => rfl
    | unopened => exact absurd hchar (by decide)
  | unopened =>
    cases issue' with
    | unterminated => exact absurd hchar (by decide)
    | unopened => rfl

theorem position_bounds (issue : TagIssue) {m : MalformedTag} {start stop : Nat}
    (h : m ∈ malformedTags issue.opening issue t start stop) :
    start ≤ m.position ∧ m.position < stop := by
  obtain ⟨f, hf, rfl⟩ := (mem_malformedTags issue).1 h
  have := Text.bounds_of_mem_scanWithin (fits_tag _ _) hf
  show start ≤ f.start ∧ f.start < stop
  omega

theorem pairwise_malformedTags (t : Text) (issue : TagIssue) (start stop : Nat) :
    (malformedTags issue.opening issue t start stop).Pairwise fun a b =>
      a.position ≠ b.position := by
  refine List.pairwise_map.2 ((Text.pairwise_scanFrom (fits_tag _ _) 0 start _).imp_of_mem ?_)
  intro a b ha _ hab
  have := Text.bounds_of_mem_scanWithin (fits_tag _ _) ha
  show a.start ≠ b.start
  omega

/-- No two reports stand at one place: in a gap an opening tag and a closing one are not written at
the same place, and the gaps follow each other. -/
theorem pairwise_ne_findMalformedTags (t : Text) :
    (findMalformedTags t).Pairwise fun a b => a.position ≠ b.position := by
  have hbounds : ∀ {g : Nat × Nat} {m : MalformedTag},
      m ∈ malformedTags assetOpening .unterminated t g.1 g.2 ++
        malformedTags assetClosing .unopened t g.1 g.2 → g.1 ≤ m.position ∧ m.position < g.2 := by
    intro g m hm
    rcases List.mem_append.1 hm with hm | hm
    · exact position_bounds .unterminated hm
    · exact position_bounds .unopened hm
  rw [findMalformedTags, (List.mergeSort_perm _ _).pairwise_iff fun h => h.symm]
  refine List.pairwise_flatMap.2 ⟨fun g hg => List.pairwise_append.2 ⟨?_, ?_, ?_⟩, ?_⟩
  · exact pairwise_malformedTags t .unterminated g.1 g.2
  · exact pairwise_malformedTags t .unopened g.1 g.2
  · intro a ha b hb heq
    obtain ⟨f, hf, rfl⟩ := (mem_malformedTags .unterminated).1 ha
    obtain ⟨f', hf', rfl⟩ := (mem_malformedTags .unopened).1 hb
    have hopens : f ∈ tagMatches t .unterminated := mem_findInGaps.2 ⟨g, hg, hf⟩
    have hcloses : f' ∈ tagMatches t .unopened := mem_findInGaps.2 ⟨g, hg, hf'⟩
    have htag := tagAt_of_mem_tagMatches hopens
    have htag' := tagAt_of_mem_tagMatches hcloses
    have hstart : f.start = f'.start := heq
    rw [hstart] at htag
    exact absurd (issue_eq_of_tagAt htag htag') (by decide)
  · refine (pairwise_gaps le_of_mem_blockRanges).imp fun {g g'} hg a ha b hb => ?_
    have := hbounds ha
    have := hbounds hb
    omega

/-- The reports stand in increasing order. -/
theorem pairwise_findMalformedTags (t : Text) :
    (findMalformedTags t).Pairwise fun a b => a.position < b.position := by
  have hle : (findMalformedTags t).Pairwise fun a b => a.position ≤ b.position := by
    refine (List.pairwise_mergeSort (fun a b c hab hbc => ?_) (fun a b => ?_) _).imp
      fun h => of_decide_eq_true h
    · simp only [decide_eq_true_eq] at *
      omega
    · simp only [Bool.or_eq_true, decide_eq_true_eq]
      omega
  exact (hle.and (pairwise_ne_findMalformedTags t)).imp fun h => Nat.lt_of_le_of_ne h.1 h.2

end Order

/-! ## What the reports say -/

/-- What the reports on a text say is so, and no tag that stands outside of its asset sections is
left out. -/
structure TagsReported (t : Text) (reports : List MalformedTag) : Prop where
  /-- The reports stand in increasing order, no two of them at one place. -/
  ordered : reports.Pairwise fun a b => a.position < b.position
  /-- Each of them stands at a tag outside of the asset sections and has its name, trimmed. -/
  written : ∀ m ∈ reports, ∃ stop name,
    TagAt m.issue.opening '\x7d' t m.position stop name ∧ m.name = name.trim ∧
      OutsideBlocks t m.position stop
  /-- Behind an opening tag that is reported there is no closing tag of its name. -/
  unclosed : ∀ m ∈ reports, m.issue = .unterminated →
    ∀ stop name, TagAt assetOpening '\x7d' t m.position stop name →
      ∀ k, stop ≤ k → ¬ closingTag name <+: t.drop k
  /-- In front of a closing tag that is reported every opening tag of its name stands in an asset
  section. -/
  unopened : ∀ m ∈ reports, m.issue = .unopened →
    ∀ stop name, TagAt assetClosing '\x7d' t m.position stop name →
      ∀ p inner, TagAt assetOpening '\x7d' t p inner name → inner ≤ m.position →
        ∃ b, .assetBlock b ∈ tokenize t ∧ b.start ≤ p ∧ p < b.stop
  /-- A tag that stands outside of the asset sections ends with one that is reported. -/
  complete : ∀ issue start stop name, TagAt issue.opening '\x7d' t start stop name →
    OutsideBlocks t start stop → ∃ m ∈ reports, m.issue = issue ∧ m.position ≤ start ∧
      ∃ name, TagAt issue.opening '\x7d' t m.position stop name

/-- **What is reported of malformed tags is so.** -/
theorem tagsReported (t : Text) : TagsReported t (findMalformedTags t) where
  ordered := pairwise_findMalformedTags t
  written m hm := by
    obtain ⟨issue, f, hf, rfl⟩ := mem_findMalformedTags.1 hm
    exact ⟨f.stop, f.value, tagAt_of_mem_tagMatches hf, rfl, outside_of_mem_tagMatches hf⟩
  unclosed m hm hissue stop name htag k hk hclose := by
    obtain ⟨issue, f, hf, rfl⟩ := mem_findMalformedTags.1 hm
    have houtside := outside_of_mem_tagMatches hf
    have hbounds := (tagAt_of_mem_tagMatches hf).bounds
    obtain ⟨b, hb, h1, h2⟩ := exists_mem_findAssetBlocks htag hk hclose
    have happart := houtside b (assetBlock_mem_tokenize.2 hb)
    simp only [MalformedTag.ofFound] at h1 h2
    omega
  unopened m hm hissue stop name htag p inner hopens hle := by
    have hclose : closingTag name <+: t.drop m.position := htag.stands
    obtain ⟨b, hb, h⟩ := exists_mem_findAssetBlocks hopens hle hclose
    exact ⟨b, assetBlock_mem_tokenize.2 hb, h⟩
  complete issue start stop name htag houtside := by
    obtain ⟨f, ⟨hf, hstart, rfl⟩, -⟩ := existsUnique_mem_tagMatches htag houtside
    exact ⟨.ofFound issue f, mem_findMalformedTags.2 ⟨issue, f, hf, rfl⟩, rfl, hstart, f.value,
      tagAt_of_mem_tagMatches hf⟩

/-! ## Placeholders that are passed over -/

/-- The content of a match, trimmed, starts like that of a tag of an asset section, so that the
match is no variable. -/
def IsLeftOver (f : Text.Found Text) : Prop :=
  assetOpenStart <+: f.value.trim ∨ assetCloseStart <+: f.value.trim

/-- One of the reports on a text stands in a match. -/
def IsReported (t : Text) (f : Text.Found Text) : Prop :=
  ∃ m ∈ findMalformedTags t, f.start ≤ m.position ∧ m.position < f.stop

/-- Every placeholder that is passed over like a tag of an asset section is reported. -/
def LeftOversReported (t : Text) : Prop :=
  ∀ f ∈ variableMatches t, IsLeftOver f → IsReported t f

/-- A tag that starts in a match ends it. -/
def EndsWithTag (t : Text) (issue : TagIssue) (f : Text.Found Text) : Prop :=
  ∃ start name, f.start ≤ start ∧ TagAt issue.opening '\x7d' t start f.stop name

/-- A tag that starts in front of a match ends it, with no asset section in between. -/
def ReachedByTag (t : Text) (issue : TagIssue) (f : Text.Found Text) : Prop :=
  ∃ start name, start < f.start ∧ TagAt issue.opening '\x7d' t start f.stop name ∧
    OutsideBlocks t start f.stop

section LeftOver

variable {t : Text} {f g : Text.Found Text} {issue : TagIssue}

theorem outside_of_mem_variableMatches (hf : f ∈ variableMatches t) :
    OutsideBlocks t f.start f.stop :=
  (clearOf_markerRanges_iff.1
    (apart_of_mem_findInGaps (fits_tag _ _) le_of_mem_markerRanges hf)).1

theorem OutsideBlocks.mono {start stop start' : Nat} (h : OutsideBlocks t start stop)
    (hle : start ≤ start') : OutsideBlocks t start' stop := by
  intro b hb
  have := h b hb
  omega

/-- A report that stands in a match is that of a tag which ends the match. A tag of the same kind
that starts earlier and ends there would have been found in its place. -/
theorem endsWithTag_of_reported (hf : f ∈ variableMatches t) (hg : g ∈ tagMatches t issue)
    (hle : f.start ≤ g.start) (hlt : g.start < f.stop) :
    EndsWithTag t issue f ∧ ¬ ReachedByTag t issue f := by
  have htag := tagAt_of_mem_tagMatches hg
  have hstop : g.stop = f.stop :=
    htag.stop_eq_of_overlap (close_notMem_opening issue) (by decide)
      (tagAt_of_mem_findInGaps hf) hle hlt
  rw [hstop] at htag
  refine ⟨⟨g.start, g.value, hle, htag⟩, ?_⟩
  rintro ⟨start, name, hstart, h, houtside⟩
  obtain ⟨g', ⟨hg', hstart', hstop'⟩, -⟩ := existsUnique_mem_tagMatches h houtside
  have heq : g' = g :=
    Text.eq_of_overlap (pairwise_findInGaps (fits_tag _ _) le_of_mem_blockRanges) hg' hg
      (i := g.start) (by omega) (by omega)
  rw [heq] at hstart'
  omega

theorem exists_reported_of_endsWithTag (hf : f ∈ variableMatches t) (h : EndsWithTag t issue f)
    (hnone : ¬ ReachedByTag t issue f) :
    ∃ g ∈ tagMatches t issue, f.start ≤ g.start ∧ g.start < f.stop := by
  obtain ⟨start, name, hle, htag⟩ := h
  obtain ⟨g, ⟨hg, hstart, hstop⟩, -⟩ :=
    existsUnique_mem_tagMatches htag ((outside_of_mem_variableMatches hf).mono hle)
  have htag' := tagAt_of_mem_tagMatches hg
  have houtside := outside_of_mem_tagMatches hg
  have hbounds := htag.bounds
  rw [hstop] at htag' houtside
  refine ⟨g, hg, ?_, by omega⟩
  by_contra hlt
  exact hnone ⟨g.start, g.value, by omega, htag', houtside⟩

/-- A match has a report in it if and only if a tag that starts in the match ends it and no tag of
the same kind that starts earlier does. -/
theorem isReported_iff (hf : f ∈ variableMatches t) :
    IsReported t f ↔ ∃ issue, EndsWithTag t issue f ∧ ¬ ReachedByTag t issue f := by
  constructor
  · rintro ⟨m, hm, hle, hlt⟩
    obtain ⟨issue, g, hg, rfl⟩ := mem_findMalformedTags.1 hm
    exact ⟨issue, endsWithTag_of_reported hf hg hle hlt⟩
  · rintro ⟨issue, hends, hnone⟩
    obtain ⟨g, hg, hle, hlt⟩ := exists_reported_of_endsWithTag hf hends hnone
    exact ⟨.ofFound issue g, mem_findMalformedTags.2 ⟨issue, g, hg, rfl⟩, hle, hlt⟩

/-- A tag of an asset section is a placeholder. -/
theorem TagAt.placeholder {start stop : Nat} {name : Text}
    (h : TagAt issue.opening '\x7d' t start stop name) :
    ∃ content, TagAt variableOpening '\x7d' t start stop content := by
  obtain ⟨lead, hopening, hclose⟩ : ∃ lead, issue.opening = variableOpening ++ lead ∧
      '\x7d' ∉ lead := by
    cases issue with
    | unterminated => exact ⟨assetOpenStart, rfl, by decide⟩
    | unopened => exact ⟨assetCloseStart, rfl, by decide⟩
  have hliteral : variableOpening ++ (lead ++ name) = issue.opening ++ name := by
    rw [hopening, List.append_assoc]
  refine ⟨lead ++ name, ?_, ?_, ?_, ?_⟩
  · exact List.append_ne_nil_of_right_ne_nil _ h.name_ne_nil
  · rw [List.mem_append, not_or]
    exact ⟨hclose, h.closing_notMem⟩
  · rw [hliteral]
    exact h.stands
  · rw [hliteral]
    exact h.stop_eq

/-- A match is reached by a tag only across a section marker: otherwise the search for variables
would have found the tag in the place of the match. -/
theorem ReachedByTag.exists_sectionMarker (hf : f ∈ variableMatches t)
    (h : ReachedByTag t issue f) : ∃ m, .sectionMarker m ∈ tokenize t ∧ m.stop ≤ f.start := by
  obtain ⟨start, name, hstart, htag, houtside⟩ := h
  have hbounds := (tagAt_of_mem_findInGaps hf).bounds
  have hclear : ClearOf (markerRanges t) f.start f.stop :=
    apart_of_mem_findInGaps (fits_tag _ _) le_of_mem_markerRanges hf
  obtain ⟨-, hmarkers⟩ := clearOf_markerRanges_iff.1 hclear
  by_contra hnone
  have houtside' : OutsideMarkers t start f.stop := by
    intro m hm
    rcases hmarkers m hm with hstop | hle
    · exact absurd ⟨m, hm, hstop⟩ hnone
    · exact .inr hle
  obtain ⟨content, hvar⟩ := htag.placeholder
  obtain ⟨g, ⟨hg, hgstart, hgstop⟩, -⟩ := existsUnique_mem_findInGaps (by decide)
    le_of_mem_markerRanges hvar (clearOf_markerRanges_iff.2 ⟨houtside, houtside'⟩)
  have heq : g = f :=
    Text.eq_of_overlap (pairwise_findInGaps (fits_tag _ _) le_of_mem_markerRanges) hg hf
      (i := f.start) (by omega) (by omega)
  rw [heq] at hgstart
  omega

end LeftOver

/-- **When what looks like a tag is reported**: every placeholder that is passed over like a tag of
an asset section is reported exactly if each of them is ended by a tag that starts in it and by none
of the same kind that starts earlier. A placeholder that is ended by a tag which starts in it is
reported anyway if no section marker stands in front of it. -/
theorem leftOversReported_iff (t : Text) :
    (LeftOversReported t ↔ ∀ f ∈ variableMatches t, IsLeftOver f →
      ∃ issue, EndsWithTag t issue f ∧ ¬ ReachedByTag t issue f) ∧
    ∀ f ∈ variableMatches t, ∀ issue, EndsWithTag t issue f →
      (∀ m, .sectionMarker m ∈ tokenize t → f.start < m.stop) → IsReported t f := by
  constructor
  · constructor
    · intro h f hf hleft
      exact (isReported_iff hf).1 (h f hf hleft)
    · intro h f hf hleft
      exact (isReported_iff hf).2 (h f hf hleft)
  · intro f hf issue hends hmarkers
    refine (isReported_iff hf).2 ⟨issue, hends, fun hreached => ?_⟩
    obtain ⟨m, hm, hstop⟩ := hreached.exists_sectionMarker hf
    have := hmarkers m hm
    omega

/-- An opening tag that is written without a blank. -/
def plainTag : Text :=
  assetOpening ++ ['S', '\x7d', '\x7d']

theorem leftOversReported_plainTag :
    LeftOversReported plainTag ∧ ∃ f ∈ variableMatches plainTag, IsLeftOver f := by
  have hmatches : variableMatches plainTag = [⟨0, 20, assetOpenStart ++ ['S']⟩] := by cbv
  refine ⟨(leftOversReported_iff plainTag).1.2 ?_, ?_⟩
  · rw [hmatches]
    intro f hf _
    obtain rfl := List.mem_singleton.1 hf
    refine ⟨.unterminated, ⟨0, ['S'], Nat.le_refl 0, by decide, by decide, ?_, rfl⟩, ?_⟩
    · exact ⟨[], rfl⟩
    · rintro ⟨start, name, hstart, -⟩
      exact absurd hstart (Nat.not_lt_zero start)
  · rw [hmatches]
    exact ⟨_, List.mem_singleton_self _, .inl (by decide)⟩

/-- An opening tag with a blank in front of its first character. -/
def spacedTag : Text :=
  variableOpening ++ [' '] ++ assetOpenStart ++ ['S', '\x7d', '\x7d']

/-- A tag with a blank in front of its first character is passed over and not reported. -/
theorem not_leftOversReported_spacedTag : ¬ LeftOversReported spacedTag := by
  have hmatches : variableMatches spacedTag = [⟨0, 21, ' ' :: assetOpenStart ++ ['S']⟩] := by cbv
  have hreports : findMalformedTags spacedTag = [] := by cbv
  intro h
  have hmem : ⟨0, 21, ' ' :: assetOpenStart ++ ['S']⟩ ∈ variableMatches spacedTag := by
    rw [hmatches]
    exact List.mem_singleton_self _
  obtain ⟨m, hm, -⟩ := h _ hmem (.inl (by decide))
  rw [hreports] at hm
  exact absurd hm List.not_mem_nil

end DocTemplate
