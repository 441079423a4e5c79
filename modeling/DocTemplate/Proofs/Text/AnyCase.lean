import DocTemplate.Plan.Substitution
import DocTemplate.Proofs.Text.Replacing
import Mathlib

/-!
# Replacing regardless of case

What a replacement regardless of case does to a text. Its occurrences are looked for in the
lower-case form of the whole text, and as many characters as the text looked for has are replaced at
the offsets that are found there. These stretches need not be occurrences: behind a dotted capital I
the lower-case form is longer than the text, and a sigma is lower-cased by what stands around it.

However the offsets lie, the text is cut at some stretches, and these are replaced and nothing else
(`whole_cutAt`, `replaced_cutAt`). A replacement that stands out from every text shows where the
cuts were made (`kept_eq_of_replaced_eq`), so if only occurrences may be replaced, whatever by, then
every stretch has to be one (`onlyOccurrences_of_aligned`, `aligned_of_onlyOccurrences`).
-/

namespace DocTemplate.Text

/-! ## Lower-case forms -/

theorem lowerFrom_length_le (afterCased : Bool) (t : Text) :
    t.length ≤ (lowerFrom afterCased t).length := by
  induction t generalizing afterCased with
  | nil => exact Nat.le_refl _
  | cons c t ih =>
    have hrest := ih (if isCaseIgnorable c then afterCased else isCased c)
    rw [lowerFrom]
    split
    · simp only [List.length_cons]
      omega
    · split <;> simp only [List.length_cons] <;> omega

theorem length_lowerFrom {afterCased : Bool} {t : Text} (h : '\u0130' ∉ t) :
    (lowerFrom afterCased t).length = t.length := by
  induction t generalizing afterCased with
  | nil => rfl
  | cons c t ih =>
    obtain ⟨hc, ht⟩ := not_or.1 (List.mem_cons.not.1 h)
    rw [lowerFrom]
    split
    · rw [List.length_cons, List.length_cons, ih ht]
    · rw [if_neg (Ne.symm hc), List.length_cons, List.length_cons, ih ht]

theorem dot_mem_lowerFrom {afterCased : Bool} {t : Text} (h : '\u0130' ∈ t) :
    '\u0307' ∈ lowerFrom afterCased t := by
  induction t generalizing afterCased with
  | nil => exact absurd h List.not_mem_nil
  | cons c t ih =>
    rw [lowerFrom]
    split
    · next hc =>
      rcases List.mem_cons.1 h with rfl | h
      · exact absurd hc (by decide)
      · exact List.mem_cons_of_mem _ (ih h)
    · split
      · exact List.mem_cons_of_mem _ List.mem_cons_self
      · next hc =>
        rcases List.mem_cons.1 h with rfl | h
        · exact absurd rfl hc
        · exact List.mem_cons_of_mem _ (ih h)

/-- A text without characters that are lower-cased by their neighbours or to more than one. -/
def Plain (t : Text) : Prop :=
  '\u0130' ∉ t ∧ '\u03a3' ∉ t

theorem lowerFrom_eq_map {afterCased : Bool} {t : Text} (h : Plain t) :
    lowerFrom afterCased t = t.map lowerChar := by
  obtain ⟨hdotted, hsigma⟩ := h
  induction t generalizing afterCased with
  | nil => rfl
  | cons c t ih =>
    obtain ⟨hc, ht⟩ := not_or.1 (List.mem_cons.not.1 hdotted)
    obtain ⟨hc', ht'⟩ := not_or.1 (List.mem_cons.not.1 hsigma)
    rw [lowerFrom, if_neg (Ne.symm hc'), if_neg (Ne.symm hc), ih ht ht', List.map_cons]

theorem lower_eq_map {t : Text} (h : Plain t) : t.lower = t.map lowerChar :=
  lowerFrom_eq_map h

theorem Plain.of_subset {s t : Text} (ht : Plain t) (h : s ⊆ t) : Plain s :=
  ⟨fun hs => ht.1 (h hs), fun hs => ht.2 (h hs)⟩

/-- Texts with the same lower-case form are of one length, if it has a dotted I in none of them. -/
theorem length_eq_of_lower_eq {m find : Text} (h : '\u0130' ∉ m) (heq : m.lower = find.lower) :
    m.length = find.lower.length := by
  rw [← heq, lower, length_lowerFrom h]

/-! ## Cuts -/

/-- A text that is cut at some stretches: each of them stands behind a gap that is kept, and behind
the last one follows the rest of the text. -/
inductive Cutting where
  | uncut (rest : Text)
  | cut (gap piece : Text) (behind : Cutting)

namespace Cutting

/-- The text that was cut. -/
def whole : Cutting → Text
  | uncut rest => rest
  | cut gap piece behind => gap ++ (piece ++ behind.whole)

/-- The stretches. -/
def pieces : Cutting → List Text
  | uncut _ => []
  | cut _ piece behind => piece :: behind.pieces

/-- What is kept: the gaps and the rest. -/
def kept : Cutting → List Text
  | uncut rest => [rest]
  | cut gap _ behind => gap :: behind.kept

/-- The text with every stretch replaced. -/
def replaced (new : Text) : Cutting → Text
  | uncut rest => rest
  | cut gap _ behind => gap ++ (new ++ behind.replaced new)

theorem kept_ne_nil (c : Cutting) : c.kept ≠ [] := by
  cases c <;> exact List.cons_ne_nil _ _

end Cutting

/-- The cuts at stretches of `width` characters, at these offsets in a text that starts at offset
`cursor`. -/
def cutAt (width : Nat) (t : Text) (cursor : Nat) : List Nat → Cutting
  | [] => .uncut t
  | offset :: rest =>
    let gap := offset - cursor
    .cut (t.take gap) ((t.drop gap).take width)
      (cutAt width (t.drop (gap + width)) (offset + width) rest)

section CutAt

variable {width cursor : Nat} {t : Text} {offsets : List Nat}

theorem whole_cutAt : (cutAt width t cursor offsets).whole = t := by
  induction offsets generalizing t cursor with
  | nil => rfl
  | cons offset rest ih =>
    rw [cutAt, Cutting.whole, ih, ← List.drop_drop, List.take_append_drop, List.take_append_drop]

theorem replaced_cutAt (new : Text) :
    (cutAt width t cursor offsets).replaced new = spliceAt new width t cursor offsets := by
  induction offsets generalizing t cursor with
  | nil => rfl
  | cons offset rest ih => rw [cutAt, Cutting.replaced, ih, spliceAt, List.append_assoc]

theorem length_le_of_mem_pieces {m : Text} (h : m ∈ (cutAt width t cursor offsets).pieces) :
    m.length ≤ width := by
  induction offsets generalizing t cursor with
  | nil => exact absurd h List.not_mem_nil
  | cons offset rest ih =>
    rcases List.mem_cons.1 h with rfl | h
    · exact List.length_take_le _ _
    · exact ih h

/-- If the stretches follow each other without overlap, each of them stands in the text at its
offset. -/
theorem pieces_cutAt (hapart : offsets.Pairwise fun a b => a + width ≤ b)
    (hle : ∀ n ∈ offsets, cursor ≤ n) :
    (cutAt width (t.drop cursor) cursor offsets).pieces =
      offsets.map fun n => t.slice n (n + width) := by
  induction offsets generalizing cursor with
  | nil => rfl
  | cons offset rest ih =>
    obtain ⟨hfirst, hrest⟩ := List.pairwise_cons.1 hapart
    have hcursor : cursor + (offset - cursor) = offset :=
      Nat.add_sub_of_le (hle _ List.mem_cons_self)
    rw [cutAt, Cutting.pieces, List.drop_drop, List.drop_drop, ← Nat.add_assoc, hcursor,
      ih hrest hfirst, List.map_cons, slice, Nat.add_sub_cancel_left]

end CutAt

/-! ## What a replacement shows of the cuts -/

/-- A replacement that stands out from all texts of up to `n` characters. -/
def mark (n : Nat) : Text :=
  List.replicate n 'a' ++ ['b']

theorem length_mark (n : Nat) : (mark n).length = n + 1 := by
  simp [mark]

theorem getElem?_mark_append {n i : Nat} (x : Text) :
    (i < n → (mark n ++ x)[i]? = some 'a') ∧ (mark n ++ x)[n]? = some 'b' := by
  constructor
  · intro hi
    simp [mark, List.getElem?_append, hi]
  · simp [mark]

/-- The first mark behind a short text is found again. -/
theorem eq_of_append_mark {n : Nat} {s s' x x' : Text} (hs : s.length ≤ n) (hs' : s'.length ≤ n)
    (h : s ++ (mark n ++ x) = s' ++ (mark n ++ x')) : s = s' ∧ x = x' := by
  have aux : ∀ {s s' x x' : Text}, s'.length ≤ n → s ++ (mark n ++ x) = s' ++ (mark n ++ x') →
      ¬ s.length < s'.length := by
    -- the end of the mark behind the shorter text would stand in the middle of the other mark
    intro s s' x x' hs' h hlt
    have hend := congrArg (·[s.length + n]?) h
    simp only [List.getElem?_append_right (Nat.le_add_right _ _), Nat.add_sub_cancel_left,
      (getElem?_mark_append (i := 0) x).2] at hend
    rw [List.getElem?_append_right (by omega), (getElem?_mark_append x').1 (by omega)] at hend
    exact absurd hend (by decide)
  have hlength : s.length = s'.length := by
    have h1 := aux hs' h
    have h2 := aux hs h.symm
    omega
  obtain ⟨rfl, hmark⟩ := List.append_inj h hlength
  exact ⟨rfl, List.append_cancel_left hmark⟩

/-- What was kept can be told from the result, if marks were put in the place of the stretches. -/
theorem kept_eq_of_replaced_eq {n : Nat} {c c' : Cutting} (hc : c.whole.length ≤ n)
    (hc' : c'.whole.length ≤ n) (h : c.replaced (mark n) = c'.replaced (mark n)) :
    c.kept = c'.kept := by
  induction c generalizing c' with
  | uncut rest =>
    cases c' with
    | uncut rest' => exact congrArg (fun t => [t]) h
    | cut gap' piece' behind' =>
      have hlength := congrArg List.length h
      simp only [Cutting.replaced, List.length_append, length_mark] at hlength
      simp only [Cutting.whole] at hc
      omega
  | cut gap piece behind ih =>
    simp only [Cutting.whole, List.length_append] at hc
    cases c' with
    | uncut rest' =>
      have hlength := congrArg List.length h
      simp only [Cutting.replaced, List.length_append, length_mark] at hlength
      simp only [Cutting.whole] at hc'
      omega
    | cut gap' piece' behind' =>
      simp only [Cutting.whole, List.length_append] at hc'
      obtain ⟨rfl, hbehind⟩ := eq_of_append_mark (by omega) (by omega) h
      rw [Cutting.kept, Cutting.kept, ih (by omega) (by omega) hbehind]

/-- If the same is kept, stretches that are nowhere longer make up a text that is not longer. -/
theorem length_whole_le {n : Nat} {c c' : Cutting} (hkept : c.kept = c'.kept)
    (hc : ∀ m ∈ c.pieces, m.length ≤ n) (hc' : ∀ m ∈ c'.pieces, m.length = n) :
    c.whole.length ≤ c'.whole.length := by
  induction c generalizing c' with
  | uncut rest =>
    cases c' with
    | uncut rest' => rw [(List.cons.inj hkept).1]
    | cut gap' piece' behind' => exact absurd (List.cons.inj hkept).2.symm behind'.kept_ne_nil
  | cut gap piece behind ih =>
    cases c' with
    | uncut rest' => exact absurd (List.cons.inj hkept).2 behind.kept_ne_nil
    | cut gap' piece' behind' =>
      obtain ⟨hgap, hbehind⟩ := List.cons.inj hkept
      have hle := ih hbehind (fun m hm => hc m (List.mem_cons_of_mem _ hm))
        fun m hm => hc' m (List.mem_cons_of_mem _ hm)
      have hpiece := hc piece List.mem_cons_self
      have hpiece' := hc' piece' List.mem_cons_self
      simp only [Cutting.whole, List.length_append, hgap]
      omega

/-- Two ways to cut a text that keep the same and of which the second one has the longer stretches
are the same. -/
theorem eq_of_kept_eq {n : Nat} {c c' : Cutting} (hkept : c.kept = c'.kept)
    (hc : ∀ m ∈ c.pieces, m.length ≤ n) (hc' : ∀ m ∈ c'.pieces, m.length = n)
    (hwhole : c.whole = c'.whole) : c = c' := by
  induction c generalizing c' with
  | uncut rest =>
    cases c' with
    | uncut rest' => rw [(List.cons.inj hkept).1]
    | cut gap' piece' behind' => exact absurd (List.cons.inj hkept).2.symm behind'.kept_ne_nil
  | cut gap piece behind ih =>
    cases c' with
    | uncut rest' => exact absurd (List.cons.inj hkept).2 behind.kept_ne_nil
    | cut gap' piece' behind' =>
      obtain ⟨rfl, hbehind⟩ := List.cons.inj hkept
      have hrest := fun m hm => hc m (List.mem_cons_of_mem _ hm)
      have hrest' := fun m hm => hc' m (List.mem_cons_of_mem _ hm)
      have hsame := List.append_cancel_left hwhole
      have hle := length_whole_le hbehind hrest hrest'
      have hpiece := hc piece List.mem_cons_self
      have hpiece' := hc' piece' List.mem_cons_self
      have hlength := congrArg List.length hsame
      simp only [List.length_append] at hlength
      obtain ⟨rfl, hwhole'⟩ := List.append_inj hsame (by omega)
      rw [ih hbehind hrest hrest' hwhole']

/-! ## Only occurrences are replaced -/

/-- The edit that replaces a text regardless of case. -/
def anyCaseEdit (find new : Text) : Edit :=
  .replaceText (.text find) (.text new) (.bool false)

/-- Whatever `find` is replaced by regardless of case, what is replaced in the text are occurrences
of it: stretches with the lower-case form of `find`. All else is kept in its place. -/
def OnlyOccurrences (t find : Text) : Prop :=
  ∀ new, ∃ c : Cutting, c.whole = t ∧ (∀ m ∈ c.pieces, m.lower = find.lower) ∧
    applyTextEdits t [anyCaseEdit find new] = .ok (c.replaced new)

/-- The offsets at which the lower-case form of `find` stands in that of the text are offsets of
occurrences in the text itself. -/
def Aligned (t find : Text) : Prop :=
  ∀ n ∈ t.lower.offsetsOf find.lower find.length,
    (t.slice n (n + find.length)).lower = find.lower

/-- The cuts that are made in a text where `find` is replaced regardless of case. -/
def anyCaseCuts (t find : Text) : Cutting :=
  cutAt find.length t 0 (t.lower.offsetsOf find.lower find.length)

section AnyCase

variable {t find : Text}

theorem whole_anyCaseCuts (t find : Text) : (anyCaseCuts t find).whole = t :=
  whole_cutAt

theorem applyTextEdits_anyCaseEdit (hfind : find ≠ []) (new : Text) :
    applyTextEdits t [anyCaseEdit find new] = .ok ((anyCaseCuts t find).replaced new) := by
  have hgiven : (Entry.text find).isGiven = true := by
    simpa [Entry.isGiven] using hfind
  have hstep : (anyCaseEdit find new).applyText t = .ok (t.replaceAnyCase find new) := by
    rw [anyCaseEdit, Edit.applyText, if_pos hgiven]
    rfl
  rw [anyCaseCuts, replaced_cutAt]
  show (anyCaseEdit find new).applyText t >>= _ = _
  rw [hstep]
  rfl

theorem fits_occursAt_lower (hfind : find ≠ []) : Fits (occursAt find.lower find.length) := by
  intro t value size h
  obtain ⟨rest, hrest, hanswer⟩ := Option.map_eq_some_iff.1 h
  obtain ⟨-, rfl⟩ := Prod.mk.inj hanswer
  have hle : find.length ≤ find.lower.length := lowerFrom_length_le false find
  rw [eq_append_of_stripStart hrest, List.length_append]
  exact ⟨List.length_pos_iff.2 hfind, by omega⟩

/-- The stretches that are replaced stand at the offsets that are found. -/
theorem pieces_anyCaseCuts (hfind : find ≠ []) : (anyCaseCuts t find).pieces =
    (t.lower.offsetsOf find.lower find.length).map fun n => t.slice n (n + find.length) := by
  refine pieces_cutAt ?_ fun n _ => Nat.zero_le n
  rw [offsetsOf_eq_occurrences, occurrences, occurrencesFrom, List.pairwise_map]
  refine (pairwise_scanFrom (fits_occursAt_lower hfind) 0 0 t.lower).imp_of_mem ?_
  intro a b ha _ hle
  obtain ⟨k, size, -, hstart, hstop, hanswer⟩ := find_of_mem_scanFrom ha
  obtain ⟨-, -, heq⟩ := Option.map_eq_some_iff.1 hanswer
  obtain ⟨-, rfl⟩ := Prod.mk.inj heq
  omega

theorem onlyOccurrences_of_aligned (hfind : find ≠ []) (h : Aligned t find) :
    OnlyOccurrences t find := by
  intro new
  refine ⟨anyCaseCuts t find, whole_anyCaseCuts t find, fun m hm => ?_,
    applyTextEdits_anyCaseEdit hfind new⟩
  rw [pieces_anyCaseCuts hfind] at hm
  obtain ⟨n, hn, rfl⟩ := List.mem_map.1 hm
  exact h n hn

theorem infix_whole_of_mem_pieces {c : Cutting} {m : Text} (h : m ∈ c.pieces) :
    m <:+: c.whole := by
  induction c with
  | uncut rest => exact absurd h List.not_mem_nil
  | cut gap piece behind ih =>
    rcases List.mem_cons.1 h with rfl | h
    · exact ⟨gap, behind.whole, by rw [Cutting.whole, List.append_assoc]⟩
    · obtain ⟨s, s', hs⟩ := ih h
      exact ⟨gap ++ (piece ++ s), s', by rw [Cutting.whole, ← hs]; simp only [List.append_assoc]⟩

theorem aligned_of_onlyOccurrences (hfind : find ≠ [])
    (hdot : '\u0130' ∉ t ∨ '\u0307' ∉ find.lower) (h : OnlyOccurrences t find) :
    Aligned t find := by
  obtain ⟨c, hwhole, hpieces, happly⟩ := h (mark t.length)
  rw [applyTextEdits_anyCaseEdit hfind, Except.ok.injEq] at happly
  have hcuts := whole_anyCaseCuts t find
  have hkept : (anyCaseCuts t find).kept = c.kept := by
    refine kept_eq_of_replaced_eq (Nat.le_of_eq ?_) (Nat.le_of_eq ?_) happly
    · rw [hcuts]
    · rw [hwhole]
  -- an occurrence has no dotted I in it, so it is as long as the lower-case form of `find`
  have hlength : ∀ m ∈ c.pieces, m.length = find.lower.length := by
    intro m hm
    refine length_eq_of_lower_eq (fun hmem => ?_) (hpieces m hm)
    rcases hdot with hdot | hdot
    · exact hdot (hwhole ▸ (infix_whole_of_mem_pieces hm).subset hmem)
    · exact hdot (hpieces m hm ▸ dot_mem_lowerFrom hmem)
  have hle : ∀ m ∈ (anyCaseCuts t find).pieces, m.length ≤ find.lower.length := fun m hm =>
    Nat.le_trans (length_le_of_mem_pieces hm) (lowerFrom_length_le false find)
  have hsame : anyCaseCuts t find = c := eq_of_kept_eq hkept hle hlength (hcuts.trans hwhole.symm)
  intro n hn
  refine hpieces _ ?_
  rw [← hsame, pieces_anyCaseCuts hfind]
  exact List.mem_map_of_mem hn

theorem prefix_of_mem_offsetsOf {s l : Text} {width n : Nat} (h : n ∈ s.offsetsOf l width) :
    l <+: s.drop n := by
  rw [offsetsOf_eq_occurrences] at h
  obtain ⟨m, hm, rfl⟩ := List.mem_map.1 h
  obtain ⟨k, size, -, hstart, -, hanswer⟩ := find_of_mem_scanFrom hm
  obtain ⟨rest, hrest, -⟩ := Option.map_eq_some_iff.1 hanswer
  rw [hstart, Nat.zero_add, eq_append_of_stripStart hrest]
  exact List.prefix_append l rest

/-- Characters that are lower-cased one by one keep their offsets. -/
theorem aligned_of_plain (ht : Plain t) (hfind : Plain find) : Aligned t find := by
  intro n hn
  have hsub : t.slice n (n + find.length) ⊆ t :=
    fun c hc => List.mem_of_mem_drop (List.mem_of_mem_take hc)
  have hprefix := prefix_of_mem_offsetsOf hn
  rw [lower_eq_map ht, lower_eq_map hfind] at hprefix
  rw [lower_eq_map (ht.of_subset hsub), lower_eq_map hfind, slice, Nat.add_sub_cancel_left,
    List.map_take, List.map_drop, ← List.length_map lowerChar]
  exact (List.prefix_iff_eq_take.1 hprefix).symm

/-- **A replacement regardless of case replaces occurrences only** as soon as each offset that is
found in the lower-case form of the text is that of an occurrence in the text itself. This is needed
too, unless there is a dotted capital I in the text and the lower-case form of what is looked for
has the combining dot of one. It holds wherever characters are lower-cased one by one. -/
theorem onlyOccurrences_aligned {t find : Text} (hfind : find ≠ []) :
    (Aligned t find → OnlyOccurrences t find) ∧
      ('\u0130' ∉ t ∨ '\u0307' ∉ find.lower → OnlyOccurrences t find → Aligned t find) ∧
      (Plain t → Plain find → Aligned t find) :=
  ⟨onlyOccurrences_of_aligned hfind, aligned_of_onlyOccurrences hfind, aligned_of_plain⟩

/-- In front of a dotted capital I the offsets are those of the text itself. -/
theorem onlyOccurrences_inFront : (['x'] : Text) ≠ [] ∧ Aligned ['X', '\u0130'] ['x'] ∧
    OnlyOccurrences ['X', '\u0130'] ['x'] ∧
      applyTextEdits ['X', '\u0130'] [anyCaseEdit ['x'] ['y']] = .ok ['y', '\u0130'] := by
  have hoffsets : offsetsOf (lower ['X', '\u0130']) (lower ['x']) 1 = [0] := by decide +kernel
  have haligned : Aligned ['X', '\u0130'] ['x'] := by
    intro n hn
    obtain rfl : n = 0 := by simpa [hoffsets] using hn
    decide +kernel
  have hfind : (['x'] : Text) ≠ [] := List.cons_ne_nil _ _
  exact ⟨hfind, haligned, (onlyOccurrences_aligned hfind).1 haligned, by cbv⟩

theorem length_replaced_le {c : Cutting} {new : Text}
    (h : ∀ m ∈ c.pieces, new.length ≤ m.length) :
    (c.replaced new).length ≤ c.whole.length := by
  induction c with
  | uncut rest => exact Nat.le_refl _
  | cut gap piece behind ih =>
    have hpiece := h piece List.mem_cons_self
    have hbehind := ih fun m hm => h m (List.mem_cons_of_mem _ hm)
    simp only [Cutting.replaced, Cutting.whole, List.length_append]
    omega

/-- Behind a dotted capital I the offsets are too large: the character that is found is kept, and
the replacement is put behind it. -/
theorem not_onlyOccurrences_behind : ¬ OnlyOccurrences ['\u0130', 'x'] ['x'] := by
  intro h
  obtain ⟨c, hwhole, hpieces, happly⟩ := h ['y']
  have hresult : applyTextEdits ['\u0130', 'x'] [anyCaseEdit ['x'] ['y']] =
      .ok ['\u0130', 'x', 'y'] := by
    cbv
  have hreplaced : c.replaced ['y'] = ['\u0130', 'x', 'y'] :=
    Except.ok.inj (happly.symm.trans hresult)
  have hle : (c.replaced ['y']).length ≤ c.whole.length := by
    refine length_replaced_le fun m hm => List.length_pos_iff.2 ?_
    rintro rfl
    exact absurd (hpieces _ hm) (by decide +kernel)
  rw [hreplaced, hwhole] at hle
  exact absurd hle (by decide)

end AnyCase

end DocTemplate.Text
