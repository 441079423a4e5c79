import DocTemplate.Text.Blank
import Mathlib.Data.List.DropRight
import Mathlib.Data.List.TakeWhile

/-!
# Trimming

What trimming takes away and what it keeps. A text is the same after trimming as before exactly
if it neither starts nor ends with a blank, and that is how a trimmed text looks (`trim_trim`).
-/

namespace DocTemplate.Text

theorem trim_eq_rdropWhile (t : Text) : t.trim = (t.dropWhile isBlank).rdropWhile isBlank := rfl

/-- Trimming cuts blanks off both ends and nothing else. -/
theorem exists_eq_append_trim (t : Text) :
    ∃ a b, t = a ++ t.trim ++ b ∧ (∀ c ∈ a, isBlank c = true) ∧ ∀ c ∈ b, isBlank c = true := by
  refine ⟨t.takeWhile isBlank, (t.dropWhile isBlank).rtakeWhile isBlank, ?_,
    fun c hc => List.mem_takeWhile_imp hc, fun c hc => List.mem_rtakeWhile_imp hc⟩
  rw [trim_eq_rdropWhile, List.append_assoc, List.rdropWhile_append_rtakeWhile,
    List.takeWhile_append_dropWhile]

theorem mem_of_mem_trim {c : Char} {t : Text} (h : c ∈ t.trim) : c ∈ t := by
  obtain ⟨a, b, ht, -, -⟩ := exists_eq_append_trim t
  rw [ht]
  exact List.mem_append_left _ (List.mem_append_right _ h)

theorem isBlank_head?_trim {c : Char} {t : Text} (h : t.trim.head? = some c) :
    isBlank c = false := by
  obtain ⟨b, hb⟩ := List.rdropWhile_prefix (p := isBlank) (l := t.dropWhile isBlank)
  have hc : (t.dropWhile isBlank).head? = some c := by
    rw [← hb, ← trim_eq_rdropWhile, List.head?_append, h]
    rfl
  have hn := List.head?_dropWhile_not isBlank t
  rw [hc] at hn
  simpa using hn

theorem isBlank_getLast?_trim {c : Char} {t : Text} (h : t.trim.getLast? = some c) :
    isBlank c = false := by
  have hne : t.trim ≠ [] := by
    rintro hn
    simp [hn] at h
  have hl := List.rdropWhile_last_not (p := isBlank) (l := t.dropWhile isBlank) hne
  rw [List.getLast?_eq_some_getLast hne, Option.some.injEq] at h
  simpa only [← trim_eq_rdropWhile, h, Bool.not_eq_true] using hl

/-- Trimming leaves a text alone that neither starts nor ends with a blank. -/
theorem trim_of_ends {t : Text} (hh : ∀ c, t.head? = some c → isBlank c = false)
    (hl : ∀ c, t.getLast? = some c → isBlank c = false) : t.trim = t := by
  have hd : t.dropWhile isBlank = t := by
    rw [List.dropWhile_eq_self_iff]
    intro hpos
    rw [hh t[0] (by rw [List.head?_eq_getElem?, List.getElem?_eq_getElem hpos])]
    exact Bool.false_ne_true
  rw [trim_eq_rdropWhile, hd, List.rdropWhile_eq_self_iff]
  intro hne
  rw [hl _ (List.getLast?_eq_some_getLast hne)]
  exact Bool.false_ne_true

theorem trim_trim (t : Text) : t.trim.trim = t.trim :=
  trim_of_ends (fun _ => isBlank_head?_trim) fun _ => isBlank_getLast?_trim

theorem trim_append_left {a : Text} (t : Text) (ha : ∀ c ∈ a, isBlank c = true) :
    (a ++ t).trim = t.trim := by
  rw [trim_eq_rdropWhile, List.dropWhile_append_of_pos ha, ← trim_eq_rdropWhile]

theorem trim_eq_nil_iff {t : Text} : t.trim = [] ↔ ∀ c ∈ t, isBlank c = true := by
  constructor
  · intro h c hc
    obtain ⟨a, b, ht, ha, hb⟩ := exists_eq_append_trim t
    rw [ht, h, List.append_nil, List.mem_append] at hc
    exact hc.elim (ha c) (hb c)
  · intro h
    rw [← List.append_nil t, trim_append_left [] h, trim_nil]

theorem blank_iff {t : Text} : t.blank = true ↔ ∀ c ∈ t, isBlank c = true := by
  rw [blank, List.isEmpty_iff, trim_eq_nil_iff]

/-- Whether the start of a text up to some character is blank does not depend on blanks around the
text. -/
theorem blank_takeWhile_trim {p : Char → Bool} (hp : ∀ c, isBlank c = true → p c = true)
    (t : Text) : blank (t.trim.takeWhile p) = blank (t.takeWhile p) := by
  rw [Bool.eq_iff_iff, blank_iff, blank_iff]
  obtain ⟨a, b, ht, ha, hb⟩ := exists_eq_append_trim t
  conv_rhs => rw [ht, List.append_assoc, List.takeWhile_append_of_pos fun c hc => hp c (ha c hc)]
  rw [List.forall_mem_append, and_iff_right ha, List.takeWhile_append]
  split
  · next hall =>
    have htrim : t.trim.takeWhile p = t.trim := (List.takeWhile_prefix p).eq_of_length hall
    rw [htrim, List.forall_mem_append,
      and_iff_left fun c hc => hb c (List.takeWhile_subset p hc)]
  · rfl

/-- What follows a text that neither starts nor ends with a blank is trimmed at its end only. -/
theorem trim_append {a : Text} (b : Text) (hne : a ≠ [])
    (hh : ∀ c, a.head? = some c → isBlank c = false)
    (hl : ∀ c, a.getLast? = some c → isBlank c = false) :
    (a ++ b).trim = a ++ b.rdropWhile isBlank := by
  obtain ⟨c, r, rfl⟩ := List.exists_cons_of_ne_nil hne
  have hd : (c :: r ++ b).dropWhile isBlank = c :: r ++ b := by
    rw [List.cons_append, List.dropWhile_cons_of_neg (by simp [hh c rfl])]
  have hr : (c :: r).reverse.dropWhile isBlank = (c :: r).reverse := by
    rw [List.dropWhile_eq_self_iff]
    intro hpos
    have hhead : (c :: r).getLast? = some ((c :: r).reverse[0]) := by
      rw [← List.head?_reverse, List.head?_eq_getElem?, List.getElem?_eq_getElem hpos]
    rw [hl _ hhead]
    exact Bool.false_ne_true
  rw [trim_eq_rdropWhile, hd, List.rdropWhile, List.reverse_append, List.dropWhile_append, hr]
  split
  · next h =>
    rw [List.isEmpty_iff] at h
    rw [List.rdropWhile, h, List.reverse_reverse, List.reverse_nil, List.append_nil]
  · rw [List.reverse_append, List.reverse_reverse, List.rdropWhile]

/-- A trimmed text is what is left if blanks are put around it and trimmed again. -/
theorem trim_append_blanks {a t b : Text} (ha : ∀ c ∈ a, isBlank c = true) (ht : t.trim = t)
    (hb : ∀ c ∈ b, isBlank c = true) (hne : t ≠ []) : (a ++ t ++ b).trim = t := by
  rw [List.append_assoc, trim_append_left _ ha, trim_append b hne,
    List.rdropWhile_eq_nil_iff.2 hb, List.append_nil]
  · intro c hc
    rw [← ht] at hc
    exact isBlank_head?_trim hc
  · intro c hc
    rw [← ht] at hc
    exact isBlank_getLast?_trim hc

end DocTemplate.Text
