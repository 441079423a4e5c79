import DocTemplate.Proofs.Marker.Gaps
import DocTemplate.Proofs.Marker.Tags
import DocTemplate.Proofs.Text.Trim

/-!
# The markers of a text

The markers that are found in a text stand in it one behind the other, each with the literal that is
written there, and every variable has a name that can be looked up (`tokenize_wellFormed`).

The three searches look at overlapping syntax. What keeps their markers apart is that each later
search is confined to the gaps of the earlier ones (`apart_of_mem_findInGaps`).
-/

namespace DocTemplate

/-! ## Matches in gaps -/

section Gaps

variable {α : Type} {find : Text → Option (α × Nat)} {t : Text} {taken : List (Int × Int)}

theorem mem_findInGaps {f : Text.Found α} :
    f ∈ findInGaps find t taken ↔
      ∃ g ∈ gaps t.length taken, f ∈ t.scanWithin find g.1 g.2 :=
  List.mem_flatMap

theorem bounds_of_mem_findInGaps (hfit : Text.Fits find) {f : Text.Found α}
    (h : f ∈ findInGaps find t taken) : f.start < f.stop ∧ f.stop ≤ t.length := by
  obtain ⟨g, -, hf⟩ := mem_findInGaps.1 h
  have := Text.bounds_of_mem_scanWithin hfit hf
  omega

theorem pairwise_findInGaps (hfit : Text.Fits find) (ht : ∀ r ∈ taken, r.1 ≤ r.2) :
    (findInGaps find t taken).Pairwise fun a b => a.stop ≤ b.start := by
  refine List.pairwise_flatMap.2 ⟨fun g _ => Text.pairwise_scanFrom hfit _ _ _, ?_⟩
  refine (pairwise_gaps ht).imp fun {g g'} hg a ha b hb => ?_
  have h1 := Text.bounds_of_mem_scanWithin hfit ha
  have h2 := Text.bounds_of_mem_scanWithin hfit hb
  omega

/-- A match in the gaps touches none of the ranges that are taken. -/
theorem apart_of_mem_findInGaps (hfit : Text.Fits find) (ht : ∀ r ∈ taken, r.1 ≤ r.2)
    {f : Text.Found α} (h : f ∈ findInGaps find t taken) :
    ∀ r ∈ taken, r.2 ≤ (f.start : Int) ∨ (f.stop : Int) ≤ r.1 := by
  obtain ⟨g, hg, hf⟩ := mem_findInGaps.1 h
  have hb := Text.bounds_of_mem_scanWithin hfit hf
  intro r hr
  rcases apart_of_mem_gaps ht hg r hr with h | h <;> omega

/-- A tag that is found in the gaps stands in the text as a whole. -/
theorem eq_append_of_mem_findInGaps {opening : Text} {closing : Char} {f : Text.Found Text}
    (h : f ∈ findInGaps (tag opening closing) t taken) :
    (closing ∉ f.value ∧ f.value ≠ []) ∧ f.start < t.length ∧
      f.stop = f.start + (opening.length + f.value.length + 2) ∧
      ∃ q, t = t.take f.start ++ (opening ++ f.value ++ [closing, closing] ++ q) := by
  obtain ⟨g, -, hscan⟩ := mem_findInGaps.1 h
  obtain ⟨size, -, hlt, hstop, hfind⟩ := Text.find_of_mem_scanWithin hscan
  obtain ⟨hname, rfl, rest, hslice⟩ := tag_eq_some_iff.1 hfind
  refine ⟨hname, hlt, hstop, rest ++ (t.drop f.start).drop (g.2 - f.start), ?_⟩
  rw [← List.append_assoc _ rest, ← hslice, Text.slice, List.take_append_drop,
    List.take_append_drop]

end Gaps

/-! ## The markers of each kind -/

theorem mem_rangesOfBlocks {blocks : List AssetBlock} {r : Int × Int} :
    r ∈ rangesOfBlocks blocks ↔ ∃ b ∈ blocks, ((b.start : Int), (b.stop : Int)) = r :=
  List.mem_map

theorem mem_rangesOfMarkers {markers : List SectionMarker} {r : Int × Int} :
    r ∈ rangesOfMarkers markers ↔ ∃ m ∈ markers, ((m.start : Int), (m.stop : Int)) = r :=
  List.mem_map

theorem mem_findAssetBlocks {t : Text} {b : AssetBlock} (h : b ∈ findAssetBlocks t) :
    b.start < b.stop ∧ b.stop ≤ t.length ∧ b.raw = t.slice b.start b.stop := by
  obtain ⟨f, hf, rfl⟩ := List.mem_map.1 h
  obtain ⟨k, size, hk, hstart, hstop, hfind⟩ := Text.find_of_mem_scanFrom hf
  obtain ⟨hpos, hle⟩ := fits_assetSection hfind
  rw [List.length_drop] at hle
  exact ⟨by show f.start < f.stop; omega, by show f.stop ≤ t.length; omega, rfl⟩

theorem pairwise_findAssetBlocks (t : Text) :
    (findAssetBlocks t).Pairwise fun a b => a.stop ≤ b.start :=
  List.pairwise_map.2 (Text.pairwise_scanFrom fits_assetSection 0 0 t)

theorem mem_findSectionMarkers {t : Text} {taken : List (Int × Int)} {m : SectionMarker} :
    m ∈ findSectionMarkers t taken ↔ ∃ f ∈ findInGaps (tag sectionOpening ']') t taken,
      m = ⟨f.value.trim, t.slice f.start f.stop, f.start, f.stop⟩ := by
  simp only [findSectionMarkers, List.mem_map, eq_comm]

theorem standsIn_of_mem_findSectionMarkers {t : Text} {taken : List (Int × Int)}
    {m : SectionMarker} (h : m ∈ findSectionMarkers t taken) :
    m.start < m.stop ∧ m.stop ≤ t.length ∧ m.raw = t.slice m.start m.stop := by
  obtain ⟨f, hf, rfl⟩ := mem_findSectionMarkers.1 h
  obtain ⟨hlt, hle⟩ := bounds_of_mem_findInGaps (fits_tag _ _) hf
  exact ⟨hlt, hle, rfl⟩

theorem pairwise_findSectionMarkers {t : Text} {taken : List (Int × Int)}
    (ht : ∀ r ∈ taken, r.1 ≤ r.2) :
    (findSectionMarkers t taken).Pairwise fun a b => a.stop ≤ b.start :=
  List.pairwise_map.2 (pairwise_findInGaps (fits_tag _ _) ht)

theorem splitContent_trim (content : Text) : splitContent content.trim = splitContent content := by
  simp only [splitContent, Text.trim_trim]

theorem variableOf_eq_some_iff {t : Text} {f : Text.Found Text} {v : Variable} :
    variableOf t f = some v ↔
      isAssetTag f.value.trim = false ∧ (splitContent f.value).1 ≠ [] ∧
        v = ⟨(splitContent f.value).1, t.slice f.start f.stop, .ofDeclared (splitContent f.value).2,
          f.start, f.stop, (splitContent f.value).2⟩ := by
  simp only [variableOf, splitContent_trim]
  split
  · next h =>
    simp only [Bool.or_eq_true, List.isEmpty_iff] at h
    rcases h with h | h <;> simp [h]
  · next h =>
    simp only [Bool.or_eq_true, List.isEmpty_iff, not_or, Bool.not_eq_true] at h
    simp [h, eq_comm]

theorem mem_findVariables {t : Text} {taken : List (Int × Int)} {v : Variable} :
    v ∈ findVariables t taken ↔
      ∃ f ∈ findInGaps (tag variableOpening '\x7d') t taken, variableOf t f = some v :=
  List.mem_filterMap

theorem pairwise_findVariables {t : Text} {taken : List (Int × Int)}
    (ht : ∀ r ∈ taken, r.1 ≤ r.2) :
    (findVariables t taken).Pairwise fun a b => a.stop ≤ b.start := by
  refine List.pairwise_filterMap.2 ((pairwise_findInGaps (fits_tag _ _) ht).imp ?_)
  intro a b hab v hv w hw
  obtain ⟨-, -, rfl⟩ := variableOf_eq_some_iff.1 hv
  obtain ⟨-, -, rfl⟩ := variableOf_eq_some_iff.1 hw
  exact hab

/-! ## All markers -/

/-- The ranges that asset sections take, so that no section marker is looked for there. -/
abbrev blockRanges (t : Text) : List (Int × Int) :=
  rangesOfBlocks (findAssetBlocks t)

/-- The section markers of a text. -/
abbrev sectionMarkers (t : Text) : List SectionMarker :=
  findSectionMarkers t (blockRanges t)

/-- The ranges that asset sections and section markers take, so that no variable is looked for
there. -/
abbrev markerRanges (t : Text) : List (Int × Int) :=
  blockRanges t ++ rangesOfMarkers (sectionMarkers t)

/-- The variables of a text. -/
abbrev textVariables (t : Text) : List Variable :=
  findVariables t (markerRanges t)

theorem le_of_mem_blockRanges {t : Text} : ∀ r ∈ blockRanges t, r.1 ≤ r.2 := by
  intro r hr
  obtain ⟨b, hb, rfl⟩ := mem_rangesOfBlocks.1 hr
  have := (mem_findAssetBlocks hb).1
  show (b.start : Int) ≤ b.stop
  omega

theorem le_of_mem_markerRanges {t : Text} : ∀ r ∈ markerRanges t, r.1 ≤ r.2 := by
  intro r hr
  rcases List.mem_append.1 hr with hr | hr
  · exact le_of_mem_blockRanges r hr
  · obtain ⟨m, hm, rfl⟩ := mem_rangesOfMarkers.1 hr
    have := (standsIn_of_mem_findSectionMarkers hm).1
    show (m.start : Int) ≤ m.stop
    omega

theorem tokenize_perm (t : Text) :
    (tokenize t).Perm ((findAssetBlocks t).map Token.assetBlock ++
      (sectionMarkers t).map Token.sectionMarker ++ (textVariables t).map Token.var) :=
  List.mergeSort_perm _ _

theorem mem_tokenize {t : Text} {k : Token} :
    k ∈ tokenize t ↔ (∃ b ∈ findAssetBlocks t, .assetBlock b = k) ∨
      (∃ m ∈ sectionMarkers t, .sectionMarker m = k) ∨ ∃ v ∈ textVariables t, .var v = k := by
  simp only [(tokenize_perm t).mem_iff, List.mem_append, List.mem_map, or_assoc]

theorem assetBlock_mem_tokenize {t : Text} {b : AssetBlock} :
    .assetBlock b ∈ tokenize t ↔ b ∈ findAssetBlocks t := by
  simp [mem_tokenize]

theorem sectionMarker_mem_tokenize {t : Text} {m : SectionMarker} :
    .sectionMarker m ∈ tokenize t ↔ m ∈ sectionMarkers t := by
  simp [mem_tokenize]

theorem var_mem_tokenize {t : Text} {v : Variable} :
    .var v ∈ tokenize t ↔ v ∈ textVariables t := by
  simp [mem_tokenize]

theorem mem_variableTokens {t : Text} {v : Variable} :
    v ∈ (tokenize t).filterMap Token.var? ↔ v ∈ textVariables t := by
  rw [List.mem_filterMap, ← var_mem_tokenize]
  constructor
  · rintro ⟨k, hk, hvar⟩
    cases k with
    | var w =>
      obtain rfl := Option.some.inj hvar
      exact hk
    | assetBlock b => exact absurd hvar (by simp [Token.var?])
    | sectionMarker m => exact absurd hvar (by simp [Token.var?])
  · exact fun h => ⟨_, h, rfl⟩

/-- Of two markers one ends before the other one starts. -/
def Token.Apart (a b : Token) : Prop :=
  a.stop ≤ b.start ∨ b.stop ≤ a.start

theorem pairwise_apart_tokenize (t : Text) : (tokenize t).Pairwise Token.Apart := by
  rw [(tokenize_perm t).pairwise_iff fun h => h.symm]
  refine List.pairwise_append.2 ⟨List.pairwise_append.2 ⟨?_, ?_, ?_⟩, ?_, ?_⟩
  · exact List.pairwise_map.2 ((pairwise_findAssetBlocks t).imp .inl)
  · exact List.pairwise_map.2 ((pairwise_findSectionMarkers le_of_mem_blockRanges).imp .inl)
  · -- a section marker is looked for outside the blocks only
    intro x hx y hy
    obtain ⟨b, hb, rfl⟩ := List.mem_map.1 hx
    obtain ⟨m, hm, rfl⟩ := List.mem_map.1 hy
    obtain ⟨f, hf, rfl⟩ := mem_findSectionMarkers.1 hm
    have := apart_of_mem_findInGaps (fits_tag _ _) le_of_mem_blockRanges hf _
      (mem_rangesOfBlocks.2 ⟨b, hb, rfl⟩)
    show b.stop ≤ f.start ∨ f.stop ≤ b.start
    omega
  · exact List.pairwise_map.2 ((pairwise_findVariables le_of_mem_markerRanges).imp .inl)
  · -- a variable is looked for outside the blocks and the section markers only
    intro x hx y hy
    obtain ⟨v, hv, rfl⟩ := List.mem_map.1 hy
    obtain ⟨f, hf, hvar⟩ := mem_findVariables.1 hv
    obtain ⟨-, -, rfl⟩ := variableOf_eq_some_iff.1 hvar
    have happart := apart_of_mem_findInGaps (fits_tag _ _) le_of_mem_markerRanges hf
    rcases List.mem_append.1 hx with hx | hx
    · obtain ⟨b, hb, rfl⟩ := List.mem_map.1 hx
      have := happart _ (List.mem_append_left _ (mem_rangesOfBlocks.2 ⟨b, hb, rfl⟩))
      show b.stop ≤ f.start ∨ f.stop ≤ b.start
      omega
    · obtain ⟨m, hm, rfl⟩ := List.mem_map.1 hx
      have := happart _ (List.mem_append_right _ (mem_rangesOfMarkers.2 ⟨m, hm, rfl⟩))
      show m.stop ≤ f.start ∨ f.stop ≤ m.start
      omega

theorem pairwise_start_le_tokenize (t : Text) :
    (tokenize t).Pairwise fun a b => a.start ≤ b.start := by
  refine (List.pairwise_mergeSort (fun a b c hab hbc => ?_) (fun a b => ?_) _).imp
    fun h => of_decide_eq_true h
  · simp only [decide_eq_true_eq] at *
    omega
  · simp only [Bool.or_eq_true, decide_eq_true_eq]
    omega

/-! ## Well-formed markers -/

/-- A marker stands in a text: its range is a part of the text that is not empty, and its literal is
what is written there. -/
structure Token.StandsIn (t : Text) (k : Token) : Prop where
  start_lt_stop : k.start < k.stop
  stop_le : k.stop ≤ t.length
  literal_eq : k.literal = t.slice k.start k.stop

theorem standsIn_of_mem_tokenize {t : Text} {k : Token} (h : k ∈ tokenize t) : k.StandsIn t := by
  rcases mem_tokenize.1 h with ⟨b, hb, rfl⟩ | ⟨m, hm, rfl⟩ | ⟨v, hv, rfl⟩
  · obtain ⟨hlt, hle, hraw⟩ := mem_findAssetBlocks hb
    exact ⟨hlt, hle, hraw⟩
  · obtain ⟨hlt, hle, hraw⟩ := standsIn_of_mem_findSectionMarkers hm
    exact ⟨hlt, hle, hraw⟩
  · obtain ⟨f, hf, hvar⟩ := mem_findVariables.1 hv
    obtain ⟨hlt, hle⟩ := bounds_of_mem_findInGaps (fits_tag _ _) hf
    obtain ⟨-, -, rfl⟩ := variableOf_eq_some_iff.1 hvar
    exact ⟨hlt, hle, rfl⟩

/-- The markers of a text follow each other without overlap. -/
theorem pairwise_tokenize (t : Text) : (tokenize t).Pairwise fun a b => a.stop ≤ b.start := by
  have h := (pairwise_start_le_tokenize t).and (pairwise_apart_tokenize t)
  refine h.imp_of_mem fun {a b} _ hb hab => ?_
  obtain ⟨hle, hapart⟩ := hab
  have hlt := (standsIn_of_mem_tokenize hb).start_lt_stop
  rcases hapart with hapart | hapart
  · exact hapart
  · -- otherwise `b` would end before it starts
    omega

theorem mem_sectionTokens {t : Text} {m : SectionMarker} :
    m ∈ (tokenize t).filterMap Token.sectionMarker? ↔ .sectionMarker m ∈ tokenize t := by
  rw [List.mem_filterMap]
  constructor
  · rintro ⟨k, hk, hm⟩
    cases k with
    | sectionMarker m' =>
      obtain rfl := Option.some.inj hm
      exact hk
    | var v => exact absurd hm (by simp [Token.sectionMarker?])
    | assetBlock b => exact absurd hm (by simp [Token.sectionMarker?])
  · exact fun h => ⟨_, h, rfl⟩

theorem pairwise_sectionTokens (t : Text) :
    ((tokenize t).filterMap Token.sectionMarker?).Pairwise fun m m' => m.stop ≤ m'.start := by
  refine List.pairwise_filterMap.2 ((pairwise_tokenize t).imp fun {a b} hab m hm m' hm' => ?_)
  cases a with
  | sectionMarker a =>
    cases b with
    | sectionMarker b =>
      obtain rfl := Option.some.inj hm
      obtain rfl := Option.some.inj hm'
      exact hab
    | _ => simp [Token.sectionMarker?] at hm'
  | _ => simp [Token.sectionMarker?] at hm

/-- The name of a variable is trimmed and not empty and holds no character that would end it, and
so is its declared type, if it has one. -/
structure Variable.WellNamed (v : Variable) : Prop where
  name_ne_nil : v.name ≠ []
  trim_name : v.name.trim = v.name
  colon_notMem : ':' ∉ v.name
  brace_notMem : '\x7d' ∉ v.name
  declaredType_spec : ∀ d, v.declaredType = some d → d ≠ [] ∧ d.trim = d

theorem trim_splitContent (content : Text) :
    (splitContent content).1.trim = (splitContent content).1 :=
  Text.trim_trim _

theorem mem_of_mem_splitContent {content : Text} {c : Char} (h : c ∈ (splitContent content).1) :
    c ∈ content :=
  Text.mem_of_mem_trim (List.takeWhile_subset _ (Text.mem_of_mem_trim h))

theorem colon_notMem_splitContent (content : Text) : ':' ∉ (splitContent content).1 := by
  intro h
  have := List.mem_takeWhile_imp (Text.mem_of_mem_trim h)
  simp at this

theorem declared_of_splitContent {content d : Text} (h : (splitContent content).2 = some d) :
    d ≠ [] ∧ d.trim = d := by
  simp only [splitContent] at h
  split at h
  · simp at h
  · next hne =>
    obtain rfl := Option.some.inj h
    exact ⟨by simpa using hne, Text.trim_trim _⟩

theorem wellNamed_of_mem_textVariables {t : Text} {v : Variable} (h : v ∈ textVariables t) :
    v.WellNamed := by
  obtain ⟨f, hf, hvar⟩ := mem_findVariables.1 h
  obtain ⟨⟨hbrace, -⟩, -⟩ := eq_append_of_mem_findInGaps hf
  obtain ⟨-, hname, rfl⟩ := variableOf_eq_some_iff.1 hvar
  exact {
    name_ne_nil := hname
    trim_name := trim_splitContent f.value
    colon_notMem := colon_notMem_splitContent f.value
    brace_notMem := fun hc => hbrace (mem_of_mem_splitContent hc)
    declaredType_spec := fun d hd => declared_of_splitContent hd }

/-- **The markers of a text are well formed**: they stand in the text in increasing order, none
reaches into the next one, each literal is what is written at its range, and variables are well
named. -/
theorem tokenize_wellFormed (t : Text) :
    (tokenize t).Pairwise (fun a b => a.start < b.start ∧ a.stop ≤ b.start) ∧
      (∀ k ∈ tokenize t, k.StandsIn t) ∧ ∀ v, .var v ∈ tokenize t → v.WellNamed := by
  refine ⟨?_, fun k hk => standsIn_of_mem_tokenize hk, fun v hv => ?_⟩
  · refine (pairwise_tokenize t).imp_of_mem fun {a b} ha _ hab => ⟨?_, hab⟩
    exact Nat.lt_of_lt_of_le (standsIn_of_mem_tokenize ha).start_lt_stop hab
  · exact wellNamed_of_mem_textVariables (var_mem_tokenize.1 hv)

end DocTemplate
