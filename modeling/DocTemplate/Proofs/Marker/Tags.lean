import DocTemplate.Marker.Scan
import DocTemplate.Proofs.Text.Matches
import Mathlib.Data.List.TakeWhile

/-!
# Tags

When a tag stands at the start of a text (`tag_eq_some_iff`) or at an offset of it (`TagAt`), and
when an asset section does (`assetSection_eq_some_iff`). Both matchers answer something that is
there (`fits_tag`, `fits_assetSection`), which is all that the scan needs of them.

A tag ends with the first closing character behind its opening. That is why a tag has one name only
(`TagAt.eq_of_start_eq`), and why of two tags that overlap both have the same end
(`TagAt.stop_eq_of_overlap`).
-/

namespace DocTemplate

/-! ## Tags at the start of a text -/

/-- A tag stands at the start of a text if the text starts with its opening, a name of at least one
character without the closing character, and the closing character twice. -/
theorem tag_eq_some_iff {opening : Text} {closing : Char} {t name : Text} {size : Nat} :
    tag opening closing t = some (name, size) ↔
      (closing ∉ name ∧ name ≠ []) ∧ size = opening.length + name.length + 2 ∧
        ∃ rest, t = opening ++ name ++ [closing, closing] ++ rest := by
  constructor
  · intro h
    simp only [tag, Option.bind_eq_bind, Option.bind_eq_some_iff] at h
    obtain ⟨body, hbody, rest, hrest, h⟩ := h
    split at h
    · simp at h
    · next hname =>
      simp only [Option.some.injEq, Prod.mk.injEq] at h
      obtain ⟨rfl, rfl⟩ := h
      refine ⟨⟨fun hc => ?_, by simpa using hname⟩, rfl, rest, ?_⟩
      · simpa using List.mem_takeWhile_imp hc
      · rw [List.append_assoc, List.append_assoc, ← Text.eq_append_of_stripStart hrest,
          List.takeWhile_append_dropWhile, ← Text.eq_append_of_stripStart hbody]
  · rintro ⟨⟨hc, hne⟩, rfl, rest, rfl⟩
    have hp : ∀ a ∈ name, decide (a ≠ closing) = true := fun a ha =>
      decide_eq_true fun h => hc (h ▸ ha)
    have htake : (name ++ ([closing, closing] ++ rest)).takeWhile (· ≠ closing) = name := by
      rw [List.takeWhile_append_of_pos hp]
      simp
    have hdrop : (name ++ ([closing, closing] ++ rest)).dropWhile (· ≠ closing) =
        [closing, closing] ++ rest := by
      rw [List.dropWhile_append_of_pos hp]
      simp
    rw [List.append_assoc, List.append_assoc]
    simp only [tag, Option.bind_eq_bind, Text.stripStart_append, Option.bind_some, htake, hdrop]
    rw [if_neg (by simpa using hne)]

theorem fits_tag (opening : Text) (closing : Char) : Text.Fits (tag opening closing) := by
  intro t name size h
  obtain ⟨-, rfl, rest, rfl⟩ := tag_eq_some_iff.1 h
  simp only [List.length_append, List.length_cons, List.length_nil]
  omega

/-! ## Tags in a text -/

/-- A tag stands in a text from `start` up to `stop`: its opening, a name of at least one character
without the closing character, and the closing character twice. -/
structure TagAt (opening : Text) (closing : Char) (t : Text) (start stop : Nat) (name : Text) :
    Prop where
  name_ne_nil : name ≠ []
  closing_notMem : closing ∉ name
  stands : opening ++ name ++ [closing, closing] <+: t.drop start
  stop_eq : stop = start + (opening ++ name ++ [closing, closing]).length

section TagAt

variable {opening t name name' : Text} {closing : Char} {start stop start' stop' : Nat}

theorem tagAt_iff :
    TagAt opening closing t start stop name ↔
      ∃ size, tag opening closing (t.drop start) = some (name, size) ∧ stop = start + size := by
  have hlength : (opening ++ name ++ [closing, closing]).length =
      opening.length + name.length + 2 := by
    rw [List.length_append, List.length_append]
    rfl
  constructor
  · rintro ⟨hne, hc, ⟨rest, hrest⟩, hstop⟩
    exact ⟨_, tag_eq_some_iff.2 ⟨⟨hc, hne⟩, rfl, rest, hrest.symm⟩, by rw [hstop, hlength]⟩
  · rintro ⟨size, htag, rfl⟩
    obtain ⟨⟨hc, hne⟩, rfl, rest, hrest⟩ := tag_eq_some_iff.1 htag
    exact ⟨hne, hc, ⟨rest, hrest.symm⟩, by rw [hlength]⟩

/-- Two tags of one kind that start at the same offset are the same. -/
theorem TagAt.eq_of_start_eq (h : TagAt opening closing t start stop name)
    (h' : TagAt opening closing t start stop' name') : name = name' ∧ stop = stop' := by
  obtain ⟨size, htag, rfl⟩ := tagAt_iff.1 h
  obtain ⟨size', htag', rfl⟩ := tagAt_iff.1 h'
  rw [htag, Option.some.injEq, Prod.mk.injEq] at htag'
  exact ⟨htag'.1, by rw [htag'.2]⟩

theorem TagAt.bounds (h : TagAt opening closing t start stop name) :
    start + 2 < stop ∧ stop ≤ t.length := by
  have hle := h.stands.length_le
  have hname := List.length_pos_iff.2 h.name_ne_nil
  have hstop := h.stop_eq
  rw [List.length_drop] at hle
  simp only [List.length_append, List.length_cons, List.length_nil] at hle hstop
  omega

/-- A tag that ends in the first part of a text stands in that part. -/
theorem TagAt.of_append {a b : Text} (h : TagAt opening closing (a ++ b) start stop name)
    (hstop : stop ≤ a.length) : TagAt opening closing a start stop name := by
  have heq := h.stop_eq
  refine ⟨h.name_ne_nil, h.closing_notMem, ?_, heq⟩
  have hstands := h.stands
  rw [List.drop_append_of_le_length (by omega)] at hstands
  refine List.prefix_of_prefix_length_le hstands (List.prefix_append _ _) ?_
  rw [List.length_drop]
  omega

theorem TagAt.getElem?_eq (h : TagAt opening closing t start stop name) {i : Nat}
    (hi : start + i < stop) :
    t[start + i]? = (opening ++ name ++ [closing, closing])[i]? := by
  have hstop := h.stop_eq
  obtain ⟨rest, hrest⟩ := h.stands
  rw [← List.getElem?_drop, ← hrest, List.getElem?_append_left (by omega)]

/-- The last two characters of a tag are closing ones, and no other character of it is. -/
theorem TagAt.getElem?_eq_closing_iff (hopening : closing ∉ opening)
    (h : TagAt opening closing t start stop name) {i : Nat} (hstart : start ≤ i)
    (hstop : i < stop) :
    t[i]? = some closing ↔ stop ≤ i + 2 := by
  obtain ⟨k, rfl⟩ := Nat.exists_eq_add_of_le hstart
  have heq : stop = start + ((opening ++ name).length + 2) := by
    rw [h.stop_eq, List.length_append, List.length_cons, List.length_singleton]
  have hfree : closing ∉ opening ++ name := by
    rw [List.mem_append, not_or]
    exact ⟨hopening, h.closing_notMem⟩
  rw [h.getElem?_eq hstop, List.getElem?_append]
  split
  · next hk =>
    constructor
    · intro hc
      exact absurd (List.mem_of_getElem? hc) hfree
    · intro hle
      omega
  · next hk =>
    have hcases : k - (opening ++ name).length = 0 ∨ k - (opening ++ name).length = 1 := by omega
    constructor
    · intro
      omega
    · rintro -
      rcases hcases with hk | hk
      · rw [hk]
        rfl
      · rw [hk]
        rfl

/-- A tag that starts within another one ends where that one ends, whatever they open with. -/
theorem TagAt.stop_eq_of_overlap {opening' : Text} (hopening : closing ∉ opening)
    (hopening' : closing ∉ opening') (h : TagAt opening closing t start stop name)
    (h' : TagAt opening' closing t start' stop' name') (hle : start' ≤ start)
    (hlt : start < stop') : stop = stop' := by
  have hbounds := h.bounds
  -- the first character of a tag is no closing one, so the second tag goes on behind it
  have hfirst : ¬ stop' ≤ start + 2 := fun hs => by
    have := (h.getElem?_eq_closing_iff hopening (Nat.le_refl _) (by omega)).1
      ((h'.getElem?_eq_closing_iff hopening' hle hlt).2 hs)
    omega
  rcases Nat.lt_trichotomy stop stop' with hs | hs | hs
  · have := (h'.getElem?_eq_closing_iff hopening' (i := stop - 2) (by omega) (by omega)).1
      ((h.getElem?_eq_closing_iff hopening (by omega) (by omega)).2 (by omega))
    omega
  · exact hs
  · have := (h.getElem?_eq_closing_iff hopening (i := stop' - 2) (by omega) (by omega)).1
      ((h'.getElem?_eq_closing_iff hopening' (by omega) (by omega)).2 (by omega))
    omega

end TagAt

/-! ## What stands before a mark -/

section Before

variable {mark t inner : Text} {c : Char}

theorem before?_of_starts (h : mark <+: t) : before? mark t = some [] := by
  obtain ⟨r, hr⟩ := Option.isSome_iff_exists.1 (Text.isSome_stripStart_iff.2 h)
  rw [before?.eq_def, hr]

theorem stripStart_eq_none (h : ¬ mark <+: t) : Text.stripStart mark t = none := by
  rwa [← Text.isSome_stripStart_iff, Bool.not_eq_true, Option.isSome_eq_false_iff,
    Option.isNone_iff_eq_none] at h

theorem before?_cons_of_not (h : ¬ mark <+: c :: t) :
    before? mark (c :: t) = (before? mark t).map (c :: ·) := by
  rw [before?, stripStart_eq_none h]

theorem before?_eq_none_iff : before? mark t = none ↔ ∀ k, ¬ mark <+: t.drop k := by
  induction t with
  | nil =>
    by_cases h : mark <+: []
    · rw [before?_of_starts h]
      exact iff_of_false (by simp) fun hall => hall 0 h
    · have hnone : before? mark [] = none := by
        unfold before?
        rw [stripStart_eq_none h]
      simpa [hnone] using h
  | cons c t ih =>
    by_cases h : mark <+: c :: t
    · rw [before?_of_starts h]
      exact iff_of_false (by simp) fun hall => hall 0 h
    · rw [before?_cons_of_not h, Option.map_eq_none_iff, ih]
      constructor
      · intro hall k
        cases k with
        | zero => exact h
        | succ k => exact hall k
      · exact fun hall k => hall (k + 1)

/-- Nothing stands before a mark that the text starts with. -/
theorem first_iff_of_starts (h : mark <+: t) :
    ((∃ rest, t = inner ++ mark ++ rest) ∧ ∀ k < inner.length, ¬ mark <+: t.drop k) ↔
      inner = [] := by
  constructor
  · rintro ⟨-, hfirst⟩
    by_contra hne
    exact hfirst 0 (List.length_pos_iff.2 hne) h
  · rintro rfl
    obtain ⟨rest, hrest⟩ := h
    exact ⟨⟨rest, hrest.symm⟩, by simp⟩

/-- What stands before a mark ends where the mark stands first. -/
theorem before?_eq_some_iff :
    before? mark t = some inner ↔
      (∃ rest, t = inner ++ mark ++ rest) ∧ ∀ k < inner.length, ¬ mark <+: t.drop k := by
  induction t generalizing inner with
  | nil =>
    by_cases h : mark <+: []
    · rw [before?_of_starts h, first_iff_of_starts h, Option.some.injEq, eq_comm]
    · have hnone := before?_eq_none_iff.2 fun k (hk : mark <+: [].drop k) => h (by simpa using hk)
      rw [hnone]
      refine iff_of_false (by simp) ?_
      rintro ⟨⟨rest, hrest⟩, -⟩
      simp only [List.nil_eq, List.append_eq_nil_iff] at hrest
      exact h (hrest.1.2 ▸ List.nil_prefix)
  | cons c t ih =>
    by_cases h : mark <+: c :: t
    · rw [before?_of_starts h, first_iff_of_starts h, Option.some.injEq, eq_comm]
    · rw [before?_cons_of_not h, Option.map_eq_some_iff]
      constructor
      · rintro ⟨inner, hinner, rfl⟩
        obtain ⟨⟨rest, rfl⟩, hfirst⟩ := ih.1 hinner
        refine ⟨⟨rest, rfl⟩, fun k hk => ?_⟩
        cases k with
        | zero => exact h
        | succ k => exact hfirst k (by simpa using hk)
      · rintro ⟨⟨rest, hrest⟩, hfirst⟩
        cases inner with
        | nil => exact absurd ⟨rest, hrest.symm⟩ h
        | cons d inner =>
          obtain ⟨rfl, rfl⟩ := List.cons.inj hrest
          refine ⟨inner, ih.2 ⟨⟨rest, rfl⟩, fun k hk => ?_⟩, rfl⟩
          exact hfirst (k + 1) (by simpa using hk)

end Before

/-! ## Asset sections -/

/-- An asset section stands at the start of a text if an opening tag does and the closing tag of the
same name stands somewhere behind it. -/
theorem assetSection_eq_some_iff {t name inner : Text} {size : Nat} :
    assetSection t = some ((name, inner), size) ↔
      ∃ openSize, tag assetOpening '\x7d' t = some (name, openSize) ∧
        before? (closingTag name) (t.drop openSize) = some inner ∧
          size = openSize + inner.length + (closingTag name).length := by
  simp only [assetSection, Option.bind_eq_bind, Option.bind_eq_some_iff]
  constructor
  · rintro ⟨⟨name', openSize⟩, htag, inner', hinner, h⟩
    simp only [pure, Option.some.injEq, Prod.mk.injEq] at h
    obtain ⟨⟨rfl, rfl⟩, rfl⟩ := h
    exact ⟨openSize, htag, hinner, rfl⟩
  · rintro ⟨openSize, htag, hinner, rfl⟩
    exact ⟨(name, openSize), htag, inner, hinner, rfl⟩

theorem fits_assetSection : Text.Fits assetSection := by
  rintro t ⟨name, inner⟩ size h
  obtain ⟨openSize, htag, hinner, rfl⟩ := assetSection_eq_some_iff.1 h
  obtain ⟨⟨rest, hdrop⟩, -⟩ := before?_eq_some_iff.1 hinner
  have hfit := fits_tag _ _ htag
  have hlength := congrArg List.length hdrop
  simp only [List.length_drop, List.length_append] at hlength
  omega

end DocTemplate
