import DocTemplate.Marker.Gaps

/-!
# What the gaps cover

The gaps that ranges leave in a text follow each other (`pairwise_gaps`), none of them shares an
offset with a range that is taken (`apart_of_mem_gaps`), and every stretch of the text that no range
touches stands in one of them as a whole (`exists_mem_gaps`). So they are what the ranges leave, and
nothing else (`isComplement_gaps`).

The induction is along the ranges in sorted order. What carries it is that the cursor stands at or
behind the end of every range already passed, and in front of every gap still to come.
-/

namespace DocTemplate

/-! ## Sorted ranges -/

theorem rangeLe_trans (a b c : Int × Int) (hab : rangeLe a b = true) (hbc : rangeLe b c = true) :
    rangeLe a c = true := by
  simp only [rangeLe, Bool.or_eq_true, Bool.and_eq_true, decide_eq_true_eq, beq_iff_eq] at *
  omega

theorem rangeLe_total (a b : Int × Int) : (rangeLe a b || rangeLe b a) = true := by
  simp only [rangeLe, Bool.or_eq_true, Bool.and_eq_true, decide_eq_true_eq, beq_iff_eq]
  omega

theorem pairwise_sorted_ranges (taken : List (Int × Int)) :
    (taken.mergeSort rangeLe).Pairwise fun a b => a.1 ≤ b.1 := by
  refine (List.pairwise_mergeSort rangeLe_trans rangeLe_total taken).imp fun {a b} h => ?_
  simp only [rangeLe, Bool.or_eq_true, Bool.and_eq_true, decide_eq_true_eq, beq_iff_eq] at h
  omega

/-! ## Gaps from a cursor on -/

variable {length cursor : Nat} {ranges : List (Int × Int)} {g : Nat × Nat}

theorem mem_gapsFrom_cons {r : Int × Int} :
    g ∈ gapsFrom length cursor (r :: ranges) ↔
      ((cursor : Int) < r.1 ∧ g = (cursor, r.1.toNat)) ∨
        g ∈ gapsFrom length (max cursor r.2.toNat) ranges := by
  rw [gapsFrom, List.mem_append]
  split <;> simp [*]

theorem bounds_of_mem_gapsFrom (h : g ∈ gapsFrom length cursor ranges) :
    cursor ≤ g.1 ∧ g.1 < g.2 := by
  induction ranges generalizing cursor with
  | nil =>
    rw [gapsFrom] at h
    split at h <;> simp_all
  | cons r rest ih =>
    rcases mem_gapsFrom_cons.1 h with ⟨hlt, rfl⟩ | h
    · show cursor ≤ cursor ∧ cursor < r.1.toNat
      omega
    · have := ih h
      omega

theorem pairwise_gapsFrom (hr : ∀ r ∈ ranges, r.1 ≤ r.2) :
    (gapsFrom length cursor ranges).Pairwise fun a b => a.2 ≤ b.1 := by
  induction ranges generalizing cursor with
  | nil =>
    rw [gapsFrom]
    split
    · exact List.pairwise_singleton _ _
    · exact .nil
  | cons r rest ih =>
    have hle := hr r List.mem_cons_self
    have hrest : (gapsFrom length (max cursor r.2.toNat) rest).Pairwise fun a b => a.2 ≤ b.1 :=
      ih fun x hx => hr x (List.mem_cons_of_mem _ hx)
    rw [gapsFrom]
    split
    · refine .cons (fun b hb => ?_) hrest
      have := bounds_of_mem_gapsFrom hb
      show r.1.toNat ≤ b.1
      omega
    · exact hrest

theorem apart_of_mem_gapsFrom (hs : ranges.Pairwise fun a b => a.1 ≤ b.1)
    (hr : ∀ r ∈ ranges, r.1 ≤ r.2) (hg : g ∈ gapsFrom length cursor ranges) :
    ∀ r ∈ ranges, r.2 ≤ g.1 ∨ (g.2 : Int) ≤ r.1 := by
  induction ranges generalizing cursor with
  | nil => simp
  | cons r rest ih =>
    obtain ⟨hfirst, hrest⟩ := List.pairwise_cons.1 hs
    have hle := hr r List.mem_cons_self
    rcases mem_gapsFrom_cons.1 hg with ⟨hlt, rfl⟩ | hg
    · -- the gap in front of `r` ends where `r` starts, and the others start no earlier
      intro x hx
      refine .inr ?_
      show ((r.1.toNat : Nat) : Int) ≤ x.1
      rcases List.mem_cons.1 hx with rfl | hx
      · omega
      · have := hfirst x hx
        omega
    · intro x hx
      rcases List.mem_cons.1 hx with rfl | hx
      · have := bounds_of_mem_gapsFrom hg
        omega
      · exact ih hrest (fun y hy => hr y (List.mem_cons_of_mem _ hy)) hg x hx

/-- A stretch behind the cursor that no range touches stands in one gap. -/
theorem exists_mem_gapsFrom {start stop : Nat} (hc : cursor ≤ start) (hlt : start < stop)
    (hl : stop ≤ length) (hapart : ∀ r ∈ ranges, r.2 ≤ (start : Int) ∨ (stop : Int) ≤ r.1) :
    ∃ g ∈ gapsFrom length cursor ranges, g.1 ≤ start ∧ stop ≤ g.2 := by
  induction ranges generalizing cursor with
  | nil =>
    have hlength : cursor < length := by omega
    rw [gapsFrom, if_pos hlength]
    exact ⟨_, List.mem_singleton_self _, hc, hl⟩
  | cons r rest ih =>
    have hrest : ∀ x ∈ rest, x.2 ≤ (start : Int) ∨ (stop : Int) ≤ x.1 := fun x hx =>
      hapart x (List.mem_cons_of_mem _ hx)
    rcases hapart r List.mem_cons_self with hbefore | hbehind
    · have hcursor : max cursor r.2.toNat ≤ start := by omega
      obtain ⟨g, hg, h⟩ := ih hcursor hrest
      exact ⟨g, mem_gapsFrom_cons.2 (.inr hg), h⟩
    · refine ⟨(cursor, r.1.toNat), mem_gapsFrom_cons.2 (.inl ⟨?_, rfl⟩), hc, ?_⟩
      · omega
      · show stop ≤ r.1.toNat
        omega

/-! ## Gaps of a text -/

variable {taken : List (Int × Int)}

theorem pairwise_gaps (ht : ∀ r ∈ taken, r.1 ≤ r.2) :
    (gaps length taken).Pairwise fun a b => a.2 ≤ b.1 :=
  pairwise_gapsFrom fun r hr => ht r (List.mem_mergeSort.1 hr)

theorem apart_of_mem_gaps (ht : ∀ r ∈ taken, r.1 ≤ r.2) (hg : g ∈ gaps length taken) :
    ∀ r ∈ taken, r.2 ≤ g.1 ∨ (g.2 : Int) ≤ r.1 := fun r hr =>
  apart_of_mem_gapsFrom (pairwise_sorted_ranges taken)
    (fun x hx => ht x (List.mem_mergeSort.1 hx)) hg r (List.mem_mergeSort.2 hr)

theorem exists_mem_gaps {start stop : Nat} (hlt : start < stop) (hl : stop ≤ length)
    (hapart : ∀ r ∈ taken, r.2 ≤ (start : Int) ∨ (stop : Int) ≤ r.1) :
    ∃ g ∈ gaps length taken, g.1 ≤ start ∧ stop ≤ g.2 :=
  exists_mem_gapsFrom (Nat.zero_le _) hlt hl fun r hr => hapart r (List.mem_mergeSort.1 hr)

/-! ## The complement -/

/-- The offset lies in the range. -/
def InRange (r : Int × Int) (offset : Int) : Prop :=
  r.1 ≤ offset ∧ offset < r.2

/-- Some ranges are what others leave of the first `length` offsets: they hold at least one offset
each, follow each other, and hold those of the first `length` offsets that lie in none of the ranges
that are taken. Beyond them, too, they share no offset with a range that is taken. -/
structure IsComplement (length : Nat) (taken : List (Int × Int)) (left : List (Nat × Nat)) :
    Prop where
  nonempty : ∀ g ∈ left, g.1 < g.2
  ordered : left.Pairwise fun a b => a.2 ≤ b.1
  covers : ∀ offset < length,
    (∃ g ∈ left, g.1 ≤ offset ∧ offset < g.2) ↔ ∀ r ∈ taken, ¬ InRange r offset
  apart : ∀ g ∈ left, ∀ r ∈ taken, ∀ offset, InRange r offset → ¬ InRange (g.1, g.2) offset

/-- **The gaps are the exact complement of the ranges that are taken**, in whatever order these are
listed and however they overlap or reach beyond the text. -/
theorem isComplement_gaps (length : Nat) (taken : List (Int × Int)) (ht : ∀ r ∈ taken, r.1 ≤ r.2) :
    IsComplement length taken (gaps length taken) := by
  have hapart : ∀ g ∈ gaps length taken, ∀ r ∈ taken, ∀ offset, InRange r offset →
      ¬ InRange (g.1, g.2) offset := by
    rintro g hg r hr offset ⟨hfrom, hbelow⟩ ⟨hgfrom, hgbelow⟩
    have := apart_of_mem_gaps ht hg r hr
    omega
  refine ⟨fun g hg => (bounds_of_mem_gapsFrom hg).2, pairwise_gaps ht, fun offset hlt => ?_, hapart⟩
  constructor
  · rintro ⟨g, hg, hfrom, hbelow⟩ r hr hin
    refine hapart g hg r hr offset hin ⟨?_, ?_⟩ <;> dsimp only <;> omega
  · intro hfree
    -- one offset alone is a stretch that no range touches
    have halone : ∀ r ∈ taken, r.2 ≤ (offset : Int) ∨ ((offset + 1 : Nat) : Int) ≤ r.1 := by
      intro r hr
      rcases Int.lt_or_le (offset : Int) r.1 with hbefore | hfrom
      · exact .inr (by omega)
      · exact .inl (Int.not_lt.1 fun hbelow => hfree r hr ⟨hfrom, hbelow⟩)
    obtain ⟨g, hg, hfrom, hto⟩ := exists_mem_gaps (Nat.lt_succ_self offset) hlt halone
    exact ⟨g, hg, hfrom, hto⟩

/-- Ranges in no order that start in front of the text, overlap, hold nothing, and start behind the
text. -/
def scatteredRanges : List (Int × Int) :=
  [(8, 9), (2, 4), (-3, 1), (2, 3), (3, 3)]

theorem isComplement_gaps_scattered :
    (∀ r ∈ scatteredRanges, r.1 ≤ r.2) ∧ gaps 6 scatteredRanges = [(1, 2), (4, 8)] ∧
      IsComplement 6 scatteredRanges [(1, 2), (4, 8)] := by
  have ht : ∀ r ∈ scatteredRanges, r.1 ≤ r.2 := by decide
  have hsorted : scatteredRanges.mergeSort rangeLe = [(-3, 1), (2, 3), (2, 4), (3, 3), (8, 9)] := by
    simp [scatteredRanges, List.mergeSort, rangeLe]
  have hgaps : gaps 6 scatteredRanges = [(1, 2), (4, 8)] := by
    rw [gaps, hsorted]
    rfl
  have hcomplement := isComplement_gaps 6 scatteredRanges ht
  exact ⟨ht, hgaps, hgaps ▸ hcomplement⟩

end DocTemplate
