import DocTemplate.Proofs.Marker.Tags
import DocTemplate.Proofs.Plan.Filling

/-!
# Replacing matches

A text in which the leftmost matches have been replaced (`replaceFound`). It is known from the three
ways in which a scan goes on: at the end of the text, at a character at which no match starts, and
at a match. `scan_induction` is the induction along them.

Replacing a text literally goes on in the same three ways. If no occurrence of it reaches into
another one, then every offset at which it stands counts (`timesFound_of_starts`), so that one can
tell from the number of replacements whether something in front of the rest was replaced
(`replaceAll_append_cases`).
-/

namespace DocTemplate.Text

/-! ## Matches -/

section Found

variable {α : Type} {find : Text → Option (α × Nat)} {f g : Text → Text}

/-- A text with each leftmost match replaced by what `f` makes of its literal. -/
def replaceFound (find : Text → Option (α × Nat)) (f : Text → Text) (t : Text) : Text :=
  splice t ((scanFrom find 0 0 t).map fun m => ⟨m.start, m.stop, f (t.slice m.start m.stop)⟩)

@[elab_as_elim]
theorem scan_induction (hfit : Fits find) {motive : Text → Prop} (nil : motive [])
    (plain : ∀ c t, find (c :: t) = none → motive t → motive (c :: t))
    (found : ∀ a t value, find (a ++ t) = some (value, a.length) → motive t → motive (a ++ t))
    (t : Text) : motive t := by
  induction hn : t.length using Nat.strongRecOn generalizing t with
  | ind n ih =>
  subst hn
  cases t with
  | nil => exact nil
  | cons c t =>
    cases hf : find (c :: t) with
    | none => exact plain c t hf (ih t.length (Nat.lt_succ_self _) t rfl)
    | some answer =>
      obtain ⟨value, size⟩ := answer
      obtain ⟨hpos, hle⟩ := hfit hf
      have htake : ((c :: t).take size).length = size := List.length_take_of_le hle
      have hdrop : ((c :: t).drop size).length < (c :: t).length := by
        rw [List.length_drop]
        omega
      rw [← List.take_append_drop size (c :: t)] at hf ⊢
      exact found _ _ value (by rwa [htake]) (ih _ hdrop _ rfl)

theorem spliceFrom_scanFrom (f : Text → Text) (a t : Text) :
    spliceFrom a.length t ((scanFrom find 0 a.length t).map fun m =>
      ⟨m.start, m.stop, f ((a ++ t).slice m.start m.stop)⟩) = replaceFound find f t := by
  have hshift := @scanFrom_add α find 0 0 a.length t
  have hslice : ∀ m : Found α, (a ++ t).slice (m.start + a.length) (m.stop + a.length) =
      t.slice m.start m.stop := by
    intro m
    rw [slice, slice, Nat.add_sub_add_right, Nat.add_comm m.start, List.drop_length_add_append]
  have hcursor := spliceFrom_add 0 a.length t
    ((scanFrom find 0 0 t).map fun m => ⟨m.start, m.stop, f (t.slice m.start m.stop)⟩)
  rw [Nat.zero_add] at hshift hcursor
  rw [replaceFound, splice, ← hcursor, hshift, List.map_map, List.map_map]
  simp only [Function.comp_def, hslice]

theorem replaceFound_of_none {c : Char} {t : Text} (h : find (c :: t) = none) :
    replaceFound find f (c :: t) = c :: replaceFound find f t := by
  rw [replaceFound, scanFrom_of_none 0 h, splice]
  refine (spliceFrom_append [c] t fun r hr => ?_).trans
    (congrArg (c :: ·) (spliceFrom_scanFrom f [c] t))
  obtain ⟨m, hm, rfl⟩ := List.mem_map.1 hr
  obtain ⟨-, size, -, -, hstop, -⟩ := find_of_mem_scanFrom hm
  have hstart := le_start_of_mem_scanFrom hm
  exact ⟨hstart, hstop ▸ Nat.le_add_right _ _⟩

/-- A stretch in which no match starts stays as it is. -/
theorem replaceFound_append {a t : Text} (h : ∀ s, s <:+ a → s ≠ [] → find (s ++ t) = none) :
    replaceFound find f (a ++ t) = a ++ replaceFound find f t := by
  induction a with
  | nil => rfl
  | cons c a ih =>
    have hnone : find (c :: (a ++ t)) = none := h _ List.suffix_rfl (List.cons_ne_nil c a)
    rw [List.cons_append, replaceFound_of_none hnone,
      ih fun s hs => h s (hs.trans (List.suffix_cons c a)), List.cons_append]

theorem replaceFound_of_some (hfit : Fits find) {a t : Text} {value : α}
    (h : find (a ++ t) = some (value, a.length)) :
    replaceFound find f (a ++ t) = f a ++ replaceFound find f t := by
  obtain ⟨c, a, rfl⟩ := List.exists_cons_of_length_pos (hfit h).1
  have hslice : slice ((c :: a) ++ t) 0 (0 + (c :: a).length) = c :: a := by
    rw [slice, List.drop_zero, Nat.zero_add, Nat.sub_zero, List.take_left]
  have hoffset : 0 + 1 + a.length = (c :: a).length := by
    rw [List.length_cons, Nat.zero_add, Nat.add_comm]
  rw [List.cons_append] at h
  rw [replaceFound, List.cons_append, scanFrom_of_some 0 h, List.map_cons, List.length_cons,
    Nat.add_sub_cancel, scanFrom_length, ← List.cons_append, ← List.length_cons, hslice, splice,
    spliceFrom_cons, hoffset, Nat.zero_add]
  exact congrArg _ (spliceFrom_scanFrom f (c :: a) t)

theorem replaceFound_congr {t : Text} (h : ∀ a ∈ literals find t, f a = g a) :
    replaceFound find f t = replaceFound find g t := by
  rw [replaceFound, replaceFound]
  refine congrArg _ (List.map_congr_left fun m hm => ?_)
  rw [h _ (List.mem_map_of_mem hm)]

theorem replaceFound_id (hfit : Fits find) (t : Text) : replaceFound find (fun a => a) t = t := by
  induction t using scan_induction hfit with
  | nil => rfl
  | plain c t hnone ih => rw [replaceFound_of_none hnone, ih]
  | found a t value hsome ih => rw [replaceFound_of_some hfit hsome, ih]

end Found

/-! ## Occurrences -/

/-- How often a text is found in another one, from the left and without overlaps. -/
def timesFound (find t : Text) : Nat :=
  (t.occurrences find find.length).length

/-- No occurrence of a text reaches into another one. -/
def Unbordered (l : Text) : Prop :=
  ∀ s a b, l ++ a = s ++ (l ++ b) → s = [] ∨ l.length ≤ s.length

section Occurrences

variable {l : Text} {c : Char}

theorem fits_occursAt (hl : l ≠ []) : Fits (occursAt l l.length) := by
  intro t value size h
  obtain ⟨rest, hrest, hanswer⟩ := Option.map_eq_some_iff.1 h
  obtain ⟨-, rfl⟩ := Prod.mk.inj hanswer
  rw [eq_append_of_stripStart hrest, List.length_append]
  exact ⟨List.length_pos_iff.2 hl, Nat.le_add_right _ _⟩

theorem timesFound_eq (l t : Text) :
    timesFound l t = (literals (occursAt l l.length) t).length := by
  rw [timesFound, occurrences, occurrencesFrom, literals, List.length_map, List.length_map]

theorem timesFound_of_not {t : Text} (h : ¬ l <+: c :: t) :
    timesFound l (c :: t) = timesFound l t := by
  have hnone : occursAt l l.length (c :: t) = none := by
    rw [occursAt, stripStart_eq_none h, Option.map_none]
  rw [timesFound_eq, timesFound_eq, literals_of_none hnone]

theorem timesFound_append_self (hl : l ≠ []) (t : Text) :
    timesFound l (l ++ t) = timesFound l t + 1 := by
  have hsome : occursAt l l.length (l ++ t) = some ((), l.length) := by
    rw [occursAt, stripStart_append, Option.map_some]
  rw [timesFound_eq, timesFound_eq, literals_of_some (fits_occursAt hl) hsome, List.length_cons]

theorem replaceAll_nil (hl : l ≠ []) (new : Text) : replaceAll [] l new = [] := by
  rw [replaceAll_eq_replaceFrom hl, replaceFrom]

theorem replaceAll_of_not (hl : l ≠ []) (new : Text) {t : Text} (h : ¬ l <+: c :: t) :
    replaceAll (c :: t) l new = c :: replaceAll t l new := by
  rw [replaceAll_eq_replaceFrom hl, replaceAll_eq_replaceFrom hl, replaceFrom, stripStart_eq_none h]

theorem replaceAll_append_self (hl : l ≠ []) (new t : Text) :
    replaceAll (l ++ t) l new = new ++ replaceAll t l new := by
  rw [replaceAll_eq_replaceFrom hl, replaceAll_eq_replaceFrom hl, replaceFrom_of_start new t hl]

/-- A stretch in which no occurrence starts does not count. -/
theorem timesFound_append {u t : Text} (h : ∀ s, s <:+ u → s ≠ [] → ¬ l <+: s ++ t) :
    timesFound l (u ++ t) = timesFound l t := by
  rw [timesFound_eq, timesFound_eq, literals_append]
  intro s hs hne
  rw [occursAt, stripStart_eq_none (h s hs hne), Option.map_none]

/-- Inside an occurrence no other one starts. -/
theorem timesFound_append_of_suffix (hunb : Unbordered l) {p s : Text} (hp : p ≠ [])
    (hl : l = p ++ s) (t : Text) : timesFound l (s ++ t) = timesFound l t := by
  refine timesFound_append fun s' hs' hne => ?_
  rintro ⟨r, hr⟩
  obtain ⟨p', rfl⟩ := hs'
  have hocc : l ++ t = p ++ p' ++ (l ++ r) := by
    rw [hr, hl]
    simp only [List.append_assoc]
  rcases hunb (p ++ p') t r hocc with hnil | hle
  · exact hp (List.append_eq_nil_iff.1 hnil).1
  · have hpos := List.length_pos_iff.2 hne
    simp only [hl, List.length_append] at hle
    omega

/-- Every offset at which a text stands counts. -/
theorem timesFound_of_starts (hunb : Unbordered l) (hl : l ≠ []) {t : Text} (h : l <+: c :: t) :
    timesFound l (c :: t) = timesFound l t + 1 := by
  obtain ⟨x, s, rfl⟩ := List.exists_cons_of_ne_nil hl
  obtain ⟨r, hr⟩ := h
  rw [List.cons_append] at hr
  obtain ⟨rfl, rfl⟩ := List.cons.inj hr
  have hinside := timesFound_append_of_suffix hunb (List.cons_ne_nil x []) rfl r
  rw [hinside, ← timesFound_append_self hl, List.cons_append]

theorem timesFound_le_append (hunb : Unbordered l) (hl : l ≠ []) (u t : Text) :
    timesFound l t ≤ timesFound l (u ++ t) := by
  induction u with
  | nil => exact Nat.le_refl _
  | cons c u ih =>
    rw [List.cons_append]
    by_cases h : l <+: c :: (u ++ t)
    · rw [timesFound_of_starts hunb hl h]
      omega
    · rwa [timesFound_of_not h]

/-- Either nothing is replaced that starts in a stretch of a text, and no occurrence counts there,
or the first replacement in it cuts it off. -/
theorem replaceAll_append_cases (hunb : Unbordered l) (hl : l ≠ []) (new u t : Text) :
    (replaceAll (u ++ t) l new = u ++ replaceAll t l new ∧
        timesFound l (u ++ t) = timesFound l t) ∨
      timesFound l t < timesFound l (u ++ t) ∧ ∃ w z q, u = w ++ z ∧ z ≠ [] ∧ z ++ t = l ++ q ∧
        replaceAll (u ++ t) l new = w ++ (new ++ replaceAll q l new) := by
  induction u with
  | nil => exact .inl ⟨rfl, rfl⟩
  | cons c u ih =>
    by_cases h : l <+: c :: (u ++ t)
    · have hcount := timesFound_of_starts hunb hl h
      have hle := timesFound_le_append hunb hl u t
      obtain ⟨q, hq⟩ := h
      refine .inr ⟨by rw [List.cons_append]; omega, [], c :: u, q, rfl, List.cons_ne_nil c u,
        hq.symm, ?_⟩
      rw [List.cons_append, ← hq, replaceAll_append_self hl, List.nil_append]
    · have hcount := timesFound_of_not h
      have hreplace := replaceAll_of_not hl new h
      rcases ih with ⟨hsame, heq⟩ | ⟨hlt, w, z, q, hu, hz, hocc, hcut⟩
      · exact .inl ⟨by rw [List.cons_append, hreplace, hsame, List.cons_append],
          by rw [List.cons_append, hcount, heq]⟩
      · exact .inr ⟨by rwa [List.cons_append, hcount], c :: w, z, q, congrArg _ hu, hz, hocc,
          by rw [List.cons_append, hreplace, hcut, List.cons_append]⟩

end Occurrences

end DocTemplate.Text
