import DocTemplate.Proofs.Marker.SectionLiterals
import DocTemplate.Proofs.Plan.UntouchedBlocks

/-!
# Replacing one literal of an asset section

Of a text in which some asset sections have been replaced (`filledIn`), the next literal is replaced
wherever it stands. It stands at least where there are asset sections with it
(`count_le_timesFound`). If it stands nowhere else, then just these are replaced
(`replaceAll_filledIn`). Otherwise the text deviates from then on (`deviates_filledIn`,
`Deviates.step`): the first place where something else was replaced moves to the left only, and
there a brace is missing that nothing brings back.
-/

namespace DocTemplate

/-! ## Texts with some asset sections replaced -/

/-- What stands in the place of an asset section once those with the literals `done` are
replaced. -/
def blockText (new : Text) (done : List Text) (a : Text) : Text :=
  if a ∈ done then new else a

/-- A text in which the asset sections with the literals `done` are replaced. -/
def filledIn (new : Text) (done : List Text) (t : Text) : Text :=
  Text.replaceFound assetSection (blockText new done) t

/-- A text in which something else was replaced than the asset sections with the literals `done`.
Where it differs first, something that is no brace stands in the place of an opening brace, either
outside of the asset sections of `t` or behind the opening tag of one of them. -/
inductive Deviates (new : Text) (done : List Text) : Text → Text → Prop where
  | outside {x : Char} {t m : Text} (hnone : assetSection ('\x7b' :: t) = none)
      (hx : isBrace x = false) : Deviates new done ('\x7b' :: t) (x :: m)
  | inside {w z t m name : Text} {size : Nat} {x : Char} {value : Text × Text}
      (hsome : assetSection ((w ++ '\x7b' :: z) ++ t) = some (value, (w ++ '\x7b' :: z).length))
      (htag : tag assetOpening '\x7d' w = some (name, size)) (hx : isBrace x = false) :
      Deviates new done ((w ++ '\x7b' :: z) ++ t) (w ++ x :: m)
  | plain {c : Char} {t m : Text} (hnone : assetSection (c :: t) = none)
      (h : Deviates new done t m) : Deviates new done (c :: t) (c :: m)
  | found {a t m : Text} {value : Text × Text}
      (hsome : assetSection (a ++ t) = some (value, a.length)) (h : Deviates new done t m) :
      Deviates new done (a ++ t) (blockText new done a ++ m)

/-- Literals of asset sections that are known from their names. -/
structure KnownByName (lits : List Text) : Prop where
  isSection : ∀ a ∈ lits, ∃ name inner, IsSection name inner a
  eq_of_name : ∀ a ∈ lits, ∀ a' ∈ lits, ∀ name inner inner',
    IsSection name inner a → IsSection name inner' a' → a = a'

section Steps

variable {lits done : List Text} {new l a t m w : Text} {c : Char}

theorem blockText_of_mem (h : a ∈ done) : blockText new done a = new :=
  if_pos h

theorem blockText_of_notMem (h : a ∉ done) : blockText new done a = a :=
  if_neg h

theorem blockText_cons_of_ne (h : a ≠ l) :
    blockText new (l :: done) a = blockText new done a := by
  rw [blockText, blockText]
  simp only [List.mem_cons, h, false_or]

theorem filledIn_of_none (hnone : assetSection (c :: t) = none) (new : Text) (done : List Text) :
    filledIn new done (c :: t) = c :: filledIn new done t :=
  Text.replaceFound_of_none hnone

theorem filledIn_of_some {value : Text × Text}
    (hsome : assetSection (a ++ t) = some (value, a.length)) (new : Text) (done : List Text) :
    filledIn new done (a ++ t) = blockText new done a ++ filledIn new done t :=
  Text.replaceFound_of_some fits_assetSection hsome

theorem assetLiterals_of_some {value : Text × Text}
    (hsome : assetSection (a ++ t) = some (value, a.length)) :
    assetLiterals (a ++ t) = a :: assetLiterals t := by
  rw [assetLiterals_eq, assetLiterals_eq, Text.literals_of_some fits_assetSection hsome]

variable (hk : KnownByName lits) (hl : l ∈ lits)

include hk

theorem KnownByName.ne_nil (ha : a ∈ lits) : a ≠ [] := by
  obtain ⟨name, inner, h⟩ := hk.isSection a ha
  exact h.ne_nil

theorem KnownByName.unbordered (ha : a ∈ lits) : Text.Unbordered a := by
  obtain ⟨name, inner, h⟩ := hk.isSection a ha
  exact h.unbordered

include hl

/-- What starts with the tag of a section and with another section is that section. -/
theorem KnownByName.eq_of_tag {name inner r q : Text} {size : Nat} (ha : a ∈ lits)
    (hsec : IsSection name inner a) (htag : tag assetOpening '\x7d' w = some (name, size))
    (h : w ++ r = l ++ q) : l = a := by
  obtain ⟨name', inner', hl'⟩ := hk.isSection l hl
  have hname := hl'.tag_append q
  rw [← h, tag_append htag, Option.some.injEq, Prod.mk.injEq] at hname
  obtain ⟨rfl, -⟩ := hname
  exact hk.eq_of_name l hl a ha name inner' inner hl' hsec

variable (hnew : ∀ x ∈ new, isBrace x = false)

include hnew

omit hk hl in
theorem exists_cons_of_new (hne : new ≠ []) (r : Text) :
    ∃ x r', isBrace x = false ∧ new ++ r = x :: r' := by
  obtain ⟨x, new, rfl⟩ := List.exists_cons_of_ne_nil hne
  exact ⟨x, new ++ r, hnew x List.mem_cons_self, rfl⟩

omit hnew in
/-- One step at a character. -/
theorem replaceAll_cons_cases (new : Text) (c : Char) (m : Text) :
    (Text.replaceAll (c :: m) l new = c :: Text.replaceAll m l new ∧
        Text.timesFound l (c :: m) = Text.timesFound l m) ∨
      Text.timesFound l m < Text.timesFound l (c :: m) ∧ c = '\x7b' ∧
        ∃ q, Text.replaceAll (c :: m) l new = new ++ q := by
  have hne := hk.ne_nil hl
  by_cases h : l <+: c :: m
  · have hcount := Text.timesFound_of_starts (hk.unbordered hl) hne h
    obtain ⟨name, inner, hsec⟩ := hk.isSection l hl
    obtain ⟨q, hq⟩ := h
    obtain ⟨r, hr⟩ := hsec.exists_cons
    refine .inr ⟨by omega, ?_, Text.replaceAll q l new, ?_⟩
    · rw [hr] at hq
      exact (List.cons.inj hq).1.symm
    · rw [← hq, Text.replaceAll_append_self hne]
  · exact .inl ⟨Text.replaceAll_of_not hne new h, Text.timesFound_of_not h⟩

/-- One step at an asset section that is not looked for. -/
theorem replaceAll_block_cases (ha : a ∈ lits) (hne : a ≠ l) (done : List Text) (m : Text) :
    (Text.replaceAll (blockText new done a ++ m) l new =
          blockText new done a ++ Text.replaceAll m l new ∧
        Text.timesFound l (blockText new done a ++ m) = Text.timesFound l m) ∨
      Text.timesFound l m < Text.timesFound l (blockText new done a ++ m) ∧
        ((∀ name inner, IsSection name inner a → '\x7b' ∉ name) →
          ∃ w z q name size, a = w ++ '\x7b' :: z ∧
            tag assetOpening '\x7d' w = some (name, size) ∧
            Text.replaceAll (blockText new done a ++ m) l new = w ++ (new ++ q)) := by
  obtain ⟨namel, innerl, hsecl⟩ := hk.isSection l hl
  rcases Text.replaceAll_append_cases (hk.unbordered hl) (hk.ne_nil hl) new
    (blockText new done a) m with hsame | ⟨hlt, w, z, q, hw, hz, hocc, hcut⟩
  · exact .inl hsame
  refine .inr ⟨hlt, fun hopen => ?_⟩
  obtain ⟨z, rfl⟩ := hsecl.exists_cons_of_starts hz hocc
  by_cases hdone : a ∈ done
  · rw [blockText_of_mem hdone] at hw
    have := hnew '\x7b' (hw ▸ List.mem_append_right w List.mem_cons_self)
    exact absurd this (by decide)
  rw [blockText_of_notMem hdone] at hw hcut ⊢
  obtain ⟨name, inner, hsec⟩ := hk.isSection a ha
  have htag := hsec.tag_append m
  rw [hw, List.append_assoc] at htag
  refine ⟨w, z, _, name, _, hw, hsecl.tag_of_starts htag hocc (hopen name inner hsec) ?_, hcut⟩
  -- at its start, only the section itself could be found
  rintro rfl
  have hself := hsec.tag_append []
  rw [List.append_nil] at hself
  rw [List.nil_append] at hw
  exact hne (hk.eq_of_tag hl ha hsec hself (hw ▸ hocc)).symm

omit hnew in
/-- In a text in which only asset sections were replaced, each literal that is left is found at
least as often as there are asset sections with it. -/
theorem count_le_timesFound (hdone : l ∉ done) (new t : Text) :
    (assetLiterals t).count l ≤ Text.timesFound l (filledIn new done t) := by
  have hunb := hk.unbordered hl
  have hne := hk.ne_nil hl
  induction t using Text.scan_induction fits_assetSection with
  | nil => exact Nat.zero_le _
  | plain c t hnone ih =>
    rw [assetLiterals_of_none hnone, filledIn_of_none hnone]
    exact ih.trans (Text.timesFound_le_append hunb hne [c] _)
  | found a t value hsome ih =>
    rw [assetLiterals_of_some hsome, filledIn_of_some hsome]
    by_cases hal : a = l
    · subst hal
      rw [blockText_of_notMem hdone, List.count_cons_self, Text.timesFound_append_self hne]
      exact Nat.succ_le_succ ih
    · rw [List.count_cons_of_ne hal]
      exact ih.trans (Text.timesFound_le_append hunb hne _ _)

/-- If the next literal is found as often as there are asset sections with it, then replacing it
replaces just these. -/
theorem replaceAll_filledIn (hdone : l ∉ done) (ht : ∀ a ∈ assetLiterals t, a ∈ lits)
    (hcount : Text.timesFound l (filledIn new done t) = (assetLiterals t).count l) :
    Text.replaceAll (filledIn new done t) l new = filledIn new (l :: done) t := by
  have hne := hk.ne_nil hl
  induction t using Text.scan_induction fits_assetSection with
  | nil => exact Text.replaceAll_nil hne new
  | plain c t hnone ih =>
    have hle := count_le_timesFound hk hl hdone new t
    rw [assetLiterals_of_none hnone] at ht hcount
    rw [filledIn_of_none hnone] at hcount ⊢
    rcases replaceAll_cons_cases hk hl new c (filledIn new done t) with
      ⟨hsame, heq⟩ | ⟨hlt, -, -⟩
    · rw [hsame, ih ht (heq.symm.trans hcount), filledIn_of_none hnone]
    · omega
  | found a t value hsome ih =>
    have hle := count_le_timesFound hk hl hdone new t
    rw [assetLiterals_of_some hsome, List.forall_mem_cons] at ht
    rw [assetLiterals_of_some hsome, filledIn_of_some hsome] at hcount
    rw [filledIn_of_some hsome, filledIn_of_some hsome]
    by_cases hal : a = l
    · subst hal
      rw [blockText_of_notMem hdone, List.count_cons_self,
        Text.timesFound_append_self hne] at hcount
      rw [blockText_of_notMem hdone, blockText_of_mem List.mem_cons_self,
        Text.replaceAll_append_self hne, ih ht.2 (Nat.succ.inj hcount)]
    · rw [List.count_cons_of_ne hal] at hcount
      rw [blockText_cons_of_ne hal]
      rcases replaceAll_block_cases hk hl hnew ht.1 hal done (filledIn new done t) with
        ⟨hsame, heq⟩ | ⟨hlt, -⟩
      · rw [hsame, ih ht.2 (heq.symm.trans hcount)]
      · omega

section Deviates

variable (hne : new ≠ [])
  (hopen : ∀ a ∈ lits, ∀ name inner, IsSection name inner a → '\x7b' ∉ name)

include hne

omit hk hl in
/-- A text that deviates is another one. -/
theorem Deviates.ne_filledIn (h : Deviates new done t m) : m ≠ filledIn new done t := by
  induction h with
  | outside hnone hx =>
    rw [filledIn_of_none hnone]
    intro heq
    obtain ⟨rfl, -⟩ := List.cons.inj heq
    exact absurd hx (by decide)
  | @inside w z t m name size x value hsome htag hx =>
    rw [filledIn_of_some hsome]
    intro heq
    by_cases hdone : w ++ '\x7b' :: z ∈ done
    · obtain ⟨-, -, rest, rfl⟩ := tag_eq_some_iff.1 htag
      obtain ⟨y, r, hy, hr⟩ := exists_cons_of_new hnew hne (filledIn new done t)
      rw [blockText_of_mem hdone, hr] at heq
      obtain ⟨rfl, -⟩ := List.cons.inj heq
      exact absurd hy (by decide)
    · rw [blockText_of_notMem hdone, List.append_assoc, List.append_cancel_left_eq] at heq
      obtain ⟨rfl, -⟩ := List.cons.inj heq
      exact absurd hx (by decide)
  | plain hnone h ih =>
    rw [filledIn_of_none hnone]
    exact fun heq => ih (List.cons.inj heq).2
  | found hsome h ih =>
    rw [filledIn_of_some hsome]
    exact fun heq => ih (List.append_cancel_left heq)

/-- After a step, a text deviates at a character outside of the asset sections or behind it. -/
theorem deviates_cons (hnone : assetSection (c :: t) = none)
    (h : Text.timesFound l (c :: m) = Text.timesFound l m →
      Deviates new (l :: done) t (Text.replaceAll m l new)) :
    Deviates new (l :: done) (c :: t) (Text.replaceAll (c :: m) l new) := by
  rcases replaceAll_cons_cases hk hl new c m with ⟨hsame, hcount⟩ | ⟨-, rfl, q, hcut⟩
  · rw [hsame]
    exact .plain hnone (h hcount)
  · obtain ⟨x, r, hx, hr⟩ := exists_cons_of_new hnew hne q
    rw [hcut, hr]
    exact .outside hnone hx

include hopen

/-- After a step, a text deviates at an asset section or behind it. -/
theorem deviates_append {value : Text × Text} (hdone : l ∉ done) (ha : a ∈ lits)
    (hsome : assetSection (a ++ t) = some (value, a.length))
    (h : Text.timesFound l (blockText new done a ++ m) = Text.timesFound l m + [a].count l →
      Deviates new (l :: done) t (Text.replaceAll m l new)) :
    Deviates new (l :: done) (a ++ t) (Text.replaceAll (blockText new done a ++ m) l new) := by
  by_cases hal : a = l
  · subst hal
    rw [blockText_of_notMem hdone, Text.timesFound_append_self (hk.ne_nil hl),
      List.count_singleton_self] at h
    have := Deviates.found hsome (h rfl)
    rw [blockText_of_mem List.mem_cons_self] at this
    rwa [blockText_of_notMem hdone, Text.replaceAll_append_self (hk.ne_nil hl)]
  · rcases replaceAll_block_cases hk hl hnew ha hal done m with ⟨hsame, hcount⟩ | ⟨-, hcut⟩
    · rw [hcount, List.count_singleton, beq_false_of_ne hal] at h
      have := Deviates.found hsome (h rfl)
      rwa [blockText_cons_of_ne hal, ← hsame] at this
    · obtain ⟨w, z, q, name, size, rfl, htag, hw⟩ := hcut (hopen a ha)
      obtain ⟨x, r, hx, hr⟩ := exists_cons_of_new hnew hne q
      rw [hw, hr]
      exact .inside hsome htag hx

/-- If the next literal is found more often than there are asset sections with it, then the text
deviates once it is replaced. -/
theorem deviates_filledIn (hdone : l ∉ done) (ht : ∀ a ∈ assetLiterals t, a ∈ lits)
    (hcount : Text.timesFound l (filledIn new done t) ≠ (assetLiterals t).count l) :
    Deviates new (l :: done) t (Text.replaceAll (filledIn new done t) l new) := by
  induction t using Text.scan_induction fits_assetSection with
  | nil => exact absurd rfl hcount
  | plain c t hnone ih =>
    rw [assetLiterals_of_none hnone] at ht hcount
    rw [filledIn_of_none hnone] at hcount ⊢
    exact deviates_cons hk hl hnew hne hnone fun heq => ih ht (heq ▸ hcount)
  | found a t value hsome ih =>
    rw [assetLiterals_of_some hsome, List.forall_mem_cons] at ht
    rw [assetLiterals_of_some hsome, filledIn_of_some hsome] at hcount
    rw [filledIn_of_some hsome]
    refine deviates_append hk hl hnew hne hopen hdone ht.1 hsome fun heq => ih ht.2 fun hrest => ?_
    have hcons : (a :: assetLiterals t).count l = [a].count l + (assetLiterals t).count l := by
      rw [← List.count_append, List.singleton_append]
    omega

/-- A text that deviates still does when the next literal is replaced in it. -/
theorem Deviates.step (hdone : l ∉ done) (ht : ∀ a ∈ assetLiterals t, a ∈ lits)
    (h : Deviates new done t m) : Deviates new (l :: done) t (Text.replaceAll m l new) := by
  induction h with
  | @outside x t m hnone hx =>
    rcases replaceAll_cons_cases hk hl new x m with ⟨hsame, -⟩ | ⟨-, rfl, -⟩
    · rw [hsame]
      exact .outside hnone hx
    · exact absurd hx (by decide)
  | @inside w z t m name size x value hsome htag hx =>
    rw [assetLiterals_of_some hsome, List.forall_mem_cons] at ht
    obtain ⟨name', inner'⟩ := value
    have hsec := isSection_of_assetSection hsome
    have hname := hsec.tag_append t
    rw [List.append_assoc, tag_append htag, Option.some.injEq, Prod.mk.injEq] at hname
    obtain ⟨rfl, -⟩ := hname
    obtain ⟨_, _, hsecl⟩ := hk.isSection l hl
    rcases Text.replaceAll_append_cases (hk.unbordered hl) (hk.ne_nil hl) new w (x :: m) with
      ⟨hsame, -⟩ | ⟨-, w', z', q, hw, hz, hocc, hcut⟩
    · -- nothing starts in front of the place where the text deviates
      rcases replaceAll_cons_cases hk hl new x m with ⟨hrest, -⟩ | ⟨-, rfl, -⟩
      · rw [hsame, hrest]
        exact .inside hsome htag hx
      · exact absurd hx (by decide)
    · -- the text now deviates earlier in the same section
      obtain ⟨z', rfl⟩ := hsecl.exists_cons_of_starts hz hocc
      have hw' : w' ≠ [] := by
        -- at its start, only the section itself could be found, and it does not go on like this
        rintro rfl
        rw [List.nil_append] at hw
        have hla := hk.eq_of_tag hl ht.1 hsec htag (hw ▸ hocc)
        rw [← hw, hla, List.append_assoc, List.append_cancel_left_eq] at hocc
        obtain ⟨rfl, -⟩ := List.cons.inj hocc
        exact absurd hx (by decide)
      have hcuttag := @tag_append w name (x :: m) size htag
      rw [hw, List.append_assoc] at hcuttag
      have htag' := hsecl.tag_of_starts hcuttag hocc (hopen _ ht.1 _ _ hsec) hw'
      have hassoc : w ++ '\x7b' :: z = w' ++ '\x7b' :: (z' ++ '\x7b' :: z) := by
        rw [hw, List.append_assoc, List.cons_append]
      obtain ⟨v, s, hv, hs⟩ := exists_cons_of_new hnew hne (Text.replaceAll q l new)
      rw [hcut, hs, hassoc]
      rw [hassoc] at hsome
      exact .inside hsome htag' hv
  | plain hnone h ih =>
    rw [assetLiterals_of_none hnone] at ht
    exact deviates_cons hk hl hnew hne hnone fun _ => ih ht
  | found hsome h ih =>
    rw [assetLiterals_of_some hsome, List.forall_mem_cons] at ht
    exact deviates_append hk hl hnew hne hopen hdone ht.1 hsome fun _ => ih ht.2

end Deviates

end Steps

end DocTemplate
