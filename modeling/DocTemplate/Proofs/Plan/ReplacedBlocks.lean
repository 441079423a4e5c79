import DocTemplate.Proofs.Failure
import DocTemplate.Proofs.Plan.SectionSteps

/-!
# Asset sections that a substitution replaces

A plan with data for asset sections looks for the literal of each name once (`blockEdits_eq`). It
replaces all asset sections and nothing else if each literal is found just as often as there are
asset sections with it (`replaceEach_filledIn`), and in a text of placeholders only then
(`timesFound_of_replaceEach`). It is so if no asset section holds another one
(`timesFound_filledIn`): then a literal stands nowhere but where it is an asset section
(`timesFound_eq_count`).
-/

namespace DocTemplate

/-! ## Asset sections that hold no others -/

/-- A text holds no opening tag of an asset section behind its start. -/
def Unnested (a : Text) : Prop :=
  ∀ p stop name, TagAt assetOpening '\x7d' a p stop name → p = 0

section Unnested

variable {l m name inner : Text}

/-- A tag that starts in an asset section ends in it. -/
theorem IsSection.stop_le {a t name' : Text} {p stop : Nat} (h : IsSection name inner a)
    (htag : TagAt assetOpening '\x7d' (a ++ t) p stop name') (hp : p < a.length) :
    stop ≤ a.length := by
  have hopen : '\x7d' ∉ assetOpening := by decide
  have hclose : '\x7d' ∉ assetClosing := by decide
  have hend := h.closes t
  have hlength := h.length_eq
  rcases Nat.lt_or_ge p ((openingTag name).length + inner.length) with hin | hbehind
  · rcases Nat.lt_or_ge ((openingTag name).length + inner.length) stop with hover | hout
    · exact (hend.stop_eq_of_overlap hclose hopen htag hin.le hover).ge
    · omega
  · exact (htag.stop_eq_of_overlap hopen hclose hend hbehind hp).le

/-- If no asset section of a text holds another one, then the literal of an asset section stands in
the text only where it is one. -/
theorem timesFound_eq_count (hl : IsSection name inner l)
    (h : ∀ a ∈ assetLiterals m, Unnested a) :
    Text.timesFound l m = (assetLiterals m).count l := by
  induction m using Text.scan_induction fits_assetSection with
  | nil => rfl
  | plain c t hnone ih =>
    rw [assetLiterals_of_none hnone] at h ⊢
    rw [Text.timesFound_of_not, ih h]
    rintro ⟨r, hr⟩
    rw [← hr, hl.assetSection_append r] at hnone
    exact absurd hnone (by simp)
  | found a t value hsome ih =>
    rw [assetLiterals_of_some hsome, List.forall_mem_cons] at h
    rw [assetLiterals_of_some hsome]
    by_cases hal : a = l
    · subst hal
      rw [List.count_cons_self, ← ih h.2]
      exact Text.timesFound_append_self hl.ne_nil t
    rw [List.count_cons_of_ne hal, ← ih h.2]
    refine Text.timesFound_append fun s hs hne => ?_
    rintro ⟨r, hr⟩
    obtain ⟨p, rfl⟩ := hs
    have hsec : IsSection value.1 value.2 (p ++ s) := isSection_of_assetSection hsome
    have htag := hl.opens p r
    rw [hr, ← List.append_assoc] at htag
    have hlt : p.length < (p ++ s).length := by
      have := List.length_pos_iff.2 hne
      rw [List.length_append]
      omega
    -- the tag of the literal stands in the section, hence at its start
    obtain rfl : p = [] := List.eq_nil_of_length_eq_zero
      (h.1 _ _ _ (htag.of_append (hsec.stop_le htag hlt)))
    rw [List.nil_append] at hal hsome
    rw [← hr, hl.assetSection_append r, Option.some.injEq, Prod.mk.injEq] at hsome
    exact hal (List.append_inj_left hr hsome.2).symm

end Unnested

/-! ## Replacing all literals -/

/-- A text in which some literals are replaced one after another. -/
def replaceEach (new m : Text) (raws : List Text) : Text :=
  raws.foldl (fun m l => Text.replaceAll m l new) m

section Runs

variable {lits raws done : List Text} {new l t m : Text} (hk : KnownByName lits)
  (hnew : ∀ x ∈ new, isBrace x = false) (ht : ∀ a ∈ assetLiterals t, a ∈ lits)
  (hraws : ∀ l ∈ raws, l ∈ lits) (hnodup : raws.Nodup) (hdone : ∀ l ∈ raws, l ∉ done)

theorem notMem_cons_of_nodup {raws : List Text} (hnodup : (l :: raws).Nodup)
    (hdone : ∀ a ∈ l :: raws, a ∉ done) : ∀ a ∈ raws, a ∉ l :: done := by
  intro a ha
  rw [List.mem_cons, not_or]
  refine ⟨?_, hdone a (List.mem_cons_of_mem _ ha)⟩
  rintro rfl
  exact (List.nodup_cons.1 hnodup).1 ha

/-- A literal that is found just as often as there are asset sections with it is one more that is
replaced. -/
theorem replaceEach_cons (hk : KnownByName lits) (hnew : ∀ x ∈ new, isBrace x = false)
    (ht : ∀ a ∈ assetLiterals t, a ∈ lits) (hl : l ∈ lits) (hdone : l ∉ done)
    (hcount : Text.timesFound l (filledIn new done t) = (assetLiterals t).count l)
    (rest : List Text) : replaceEach new (filledIn new done t) (l :: rest) =
      replaceEach new (filledIn new (l :: done) t) rest :=
  congrArg (replaceEach new · rest) (replaceAll_filledIn hk hl hnew hdone ht hcount)

include hk hnew ht hraws hnodup hdone

/-- If each literal is found just as often as there are asset sections with it, then all of them are
replaced and nothing else is. -/
theorem replaceEach_filledIn (hcount : ∀ before l later, raws = before ++ l :: later →
      Text.timesFound l (replaceEach new (filledIn new done t) before) =
        (assetLiterals t).count l) :
    replaceEach new (filledIn new done t) raws = filledIn new (raws.reverse ++ done) t := by
  induction raws generalizing done with
  | nil => rfl
  | cons l raws ih =>
    rw [List.forall_mem_cons] at hraws
    have hrun := replaceEach_cons hk hnew ht hraws.1 (hdone l List.mem_cons_self)
      (hcount [] l raws rfl)
    rw [hrun, ih hraws.2 (List.nodup_cons.1 hnodup).2 (notMem_cons_of_nodup hnodup hdone),
      List.reverse_cons, List.append_assoc, List.singleton_append]
    intro before l' later hsplit
    rw [← hrun]
    exact hcount (l :: before) l' later (congrArg _ hsplit)

/-- If each literal that is left is found just as often as there are asset sections with it whatever
was replaced before, then so it is at its turn. -/
theorem timesFound_of_all (hall : ∀ done, ∀ l ∈ lits, l ∉ done →
      Text.timesFound l (filledIn new done t) = (assetLiterals t).count l)
    (before : List Text) (l : Text) (later : List Text) (hsplit : raws = before ++ l :: later) :
    Text.timesFound l (replaceEach new (filledIn new done t) before) =
      (assetLiterals t).count l := by
  induction raws generalizing done before with
  | nil => exact absurd hsplit (by simp)
  | cons a raws ih =>
    rw [List.forall_mem_cons] at hraws
    have hcount := hall done a hraws.1 (hdone a List.mem_cons_self)
    cases before with
    | nil =>
      obtain ⟨rfl, -⟩ := List.cons.inj hsplit
      exact hcount
    | cons b before =>
      obtain ⟨rfl, hbehind⟩ := List.cons.inj hsplit
      rw [replaceEach_cons hk hnew ht hraws.1 (hdone a List.mem_cons_self) hcount]
      exact ih hraws.2 (List.nodup_cons.1 hnodup).2 (notMem_cons_of_nodup hnodup hdone) before
        hbehind

variable (hne : new ≠ [])
  (hopen : ∀ a ∈ lits, ∀ name inner, IsSection name inner a → '\x7b' ∉ name)

include hne hopen

/-- A text that deviates still does in the end. -/
theorem Deviates.all_steps (h : Deviates new done t m) :
    Deviates new (raws.reverse ++ done) t (replaceEach new m raws) := by
  induction raws generalizing done m with
  | nil => exact h
  | cons l raws ih =>
    rw [List.forall_mem_cons] at hraws
    have hstep := h.step hk hraws.1 hnew hne hopen (hdone l List.mem_cons_self) ht
    have := ih hraws.2 (List.nodup_cons.1 hnodup).2 (notMem_cons_of_nodup hnodup hdone) hstep
    rwa [List.reverse_cons, List.append_assoc, List.singleton_append]

/-- If in the end just the asset sections are replaced, then each literal was found just as often as
there are asset sections with it. -/
theorem timesFound_of_replaceEach
    (hend : replaceEach new (filledIn new done t) raws =
      filledIn new (raws.reverse ++ done) t) (before : List Text) (l : Text) (later : List Text)
    (hsplit : raws = before ++ l :: later) :
    Text.timesFound l (replaceEach new (filledIn new done t) before) =
      (assetLiterals t).count l := by
  induction raws generalizing done before with
  | nil => exact absurd hsplit (by simp)
  | cons a raws ih =>
    rw [List.forall_mem_cons] at hraws
    have hfirst := hdone a List.mem_cons_self
    have hrest := (List.nodup_cons.1 hnodup).2
    have hdone' := notMem_cons_of_nodup hnodup hdone
    rw [List.reverse_cons, List.append_assoc, List.singleton_append] at hend
    by_cases hcount : Text.timesFound a (filledIn new done t) = (assetLiterals t).count a
    · have hrun := replaceEach_cons hk hnew ht hraws.1 hfirst hcount
      cases before with
      | nil =>
        obtain ⟨rfl, -⟩ := List.cons.inj hsplit
        exact hcount
      | cons b before =>
        obtain ⟨rfl, hbehind⟩ := List.cons.inj hsplit
        rw [hrun] at hend ⊢
        exact ih hraws.2 hrest hdone' hend before hbehind
    · have hdev := deviates_filledIn hk hraws.1 hnew hne hopen hfirst ht hcount
      have hall := hdev.all_steps hk hnew ht hraws.2 hrest hdone' hne hopen
      exact absurd hend (hall.ne_filledIn hnew hne)

end Runs

/-! ## The plan -/

/-- A text with every asset section replaced by one text. -/
def blocksReplaced (t new : Text) : Text :=
  splice t ((findAssetBlocks t).map fun b => ⟨b.start, b.stop, new⟩)

/-- Each edit of a plan finds what it looks for, in the text that the edits before it leave, just as
often as there are asset sections with that literal in `t`. -/
def ReplacesBlocksOnly (t : Text) (edits : List Edit) : Prop :=
  ∀ before find new later left, edits = before ++ replacingEdit (find, new) :: later →
    applyTextEdits t before = .ok left →
      Text.timesFound find left = (assetLiterals t).count find

section Plan

variable {t new : Text} {raws : List Text}

theorem blocksReplaced_eq {done : List Text} (h : ∀ a ∈ assetLiterals t, a ∈ done) :
    blocksReplaced t new = filledIn new done t := by
  have hfound : blocksReplaced t new = Text.replaceFound assetSection (fun _ => new) t := by
    rw [blocksReplaced, findAssetBlocks, List.map_map]
    rfl
  rw [hfound, filledIn]
  refine Text.replaceFound_congr fun a ha => (blockText_of_mem (h a ?_)).symm
  rwa [assetLiterals_eq]

theorem filledIn_nil (new t : Text) : filledIn new [] t = t := by
  have hsame : blockText new [] = fun a => a := by
    funext a
    exact blockText_of_notMem (by simp)
  rw [filledIn, hsame, Text.replaceFound_id fits_assetSection]

theorem applyTextEdits_replacing (hraws : ∀ l ∈ raws, l ≠ []) (new t : Text) :
    applyTextEdits t (raws.map fun l => replacingEdit (l, new)) =
      .ok (replaceEach new t raws) := by
  induction raws generalizing t with
  | nil => rfl
  | cons l raws ih =>
    rw [List.forall_mem_cons] at hraws
    obtain ⟨c, l, rfl⟩ := List.exists_cons_of_ne_nil hraws.1
    exact ih hraws.2 (Text.replaceAll t (c :: l) new)

theorem replacesBlocksOnly_iff (hraws : ∀ l ∈ raws, l ≠ []) :
    ReplacesBlocksOnly t (raws.map fun l => replacingEdit (l, new)) ↔
      ∀ before l later, raws = before ++ l :: later →
        Text.timesFound l (replaceEach new t before) = (assetLiterals t).count l := by
  constructor
  · rintro h before l later rfl
    rw [List.forall_mem_append] at hraws
    refine h (before.map fun l => replacingEdit (l, new)) l new
      (later.map fun l => replacingEdit (l, new)) _ ?_ (applyTextEdits_replacing hraws.1 new t)
    rw [List.map_append, List.map_cons]
  · intro h before find new' later left hsplit hleft
    obtain ⟨before, rest, rfl, rfl, hrest⟩ := List.map_eq_append_iff.1 hsplit
    obtain ⟨l, later, rfl, hedit, rfl⟩ := List.map_eq_cons_iff.1 hrest
    rw [List.forall_mem_append] at hraws
    rw [applyTextEdits_replacing hraws.1] at hleft
    obtain rfl := Except.ok.inj hleft
    obtain rfl : l = find := by
      simp only [Edit.replaceText.injEq, Entry.text.injEq] at hedit
      exact hedit.1
    exact h before l later rfl

/-- The plan for asset sections looks for each of their literals once, if names and literals go
together. -/
theorem blockEdits_eq {all seen blocks : List AssetBlock}
    (hall : ∀ b ∈ all, ∀ b' ∈ all, b.name = b'.name ↔ b.raw = b'.raw)
    (hseen : ∀ b ∈ seen, b ∈ all) (hblocks : ∀ b ∈ blocks, b ∈ all) (new : Text) :
    blockEdits new (seen.map (·.name)) blocks =
      (distinctFrom (seen.map (·.raw)) (blocks.map (·.raw))).map
        fun l => replacingEdit (l, new) := by
  induction blocks generalizing seen with
  | nil => rfl
  | cons b blocks ih =>
    rw [List.forall_mem_cons] at hblocks
    have hmem : b.name ∈ seen.map (·.name) ↔ b.raw ∈ seen.map (·.raw) := by
      simp only [List.mem_map]
      exact exists_congr fun b' => and_congr_right fun hb' => hall b' (hseen b' hb') b hblocks.1
    rw [blockEdits, List.map_cons, distinctFrom]
    by_cases hb : b.name ∈ seen.map (·.name)
    · rw [if_pos hb, if_pos (hmem.1 hb)]
      exact ih hseen hblocks.2
    · rw [if_neg hb, if_neg (mt hmem.2 hb), List.map_cons]
      refine congrArg _ (@ih (b :: seen) ?_ hblocks.2)
      exact List.forall_mem_cons.2 ⟨hblocks.1, hseen⟩

theorem IsSection.name_eq {name name' inner inner' l : Text} (h : IsSection name inner l)
    (h' : IsSection name' inner' l) : name = name' := by
  have htag := h.tag_append []
  rw [h'.tag_append [], Option.some.injEq, Prod.mk.injEq] at htag
  exact htag.1.symm

section SameNames

variable (hsame : ∀ b ∈ findAssetBlocks t, ∀ b' ∈ findAssetBlocks t, b.name = b'.name →
  b.raw = b'.raw)

include hsame

theorem name_eq_iff_raw_eq : ∀ b ∈ findAssetBlocks t, ∀ b' ∈ findAssetBlocks t,
    b.name = b'.name ↔ b.raw = b'.raw := by
  intro b hb b' hb'
  refine ⟨hsame b hb b' hb', fun hraw => ?_⟩
  obtain ⟨name, inner, h, hname⟩ := isSection_of_mem_findAssetBlocks hb
  obtain ⟨name', inner', h', hname'⟩ := isSection_of_mem_findAssetBlocks hb'
  rw [hname, hname', h.name_eq (hraw ▸ h')]

theorem knownByName_assetLiterals : KnownByName (assetLiterals t) := by
  constructor
  · intro a ha
    obtain ⟨b, hb, rfl⟩ := List.mem_map.1 ha
    obtain ⟨name, inner, h, -⟩ := isSection_of_mem_findAssetBlocks hb
    exact ⟨name, inner, h⟩
  · intro a ha a' ha' name inner inner' h h'
    obtain ⟨b, hb, rfl⟩ := List.mem_map.1 ha
    obtain ⟨b', hb', rfl⟩ := List.mem_map.1 ha'
    obtain ⟨name₁, inner₁, h₁, hname₁⟩ := isSection_of_mem_findAssetBlocks hb
    obtain ⟨name₂, inner₂, h₂, hname₂⟩ := isSection_of_mem_findAssetBlocks hb'
    refine hsame b hb b' hb' ?_
    rw [hname₁, hname₂, h₁.name_eq h, h₂.name_eq h']

end SameNames

/-! ## Texts of placeholders -/

theorem openingTag_eq_braced (name : Text) :
    openingTag name = braced (assetOpenStart ++ name) := by
  simp [openingTag, assetOpening, variableOpening, braced]

/-- In a text of placeholders, the names of asset sections hold no opening brace. -/
theorem open_notMem_of_placeholdersOnly (ht : PlaceholdersOnly t) : ∀ a ∈ assetLiterals t,
    ∀ name inner, IsSection name inner a → '\x7b' ∉ name := by
  intro a ha name inner h hmem
  obtain ⟨ps, hps, rfl⟩ := exists_render ht
  have hclose : '\x7d' ∉ assetOpenStart ++ name := by
    rw [List.mem_append, not_or]
    exact ⟨by decide, h.close_notMem⟩
  have hinfix : braced (assetOpenStart ++ name) <:+: render ps := by
    refine List.IsInfix.trans ?_ (infix_of_mem_assetLiterals ha)
    rw [← openingTag_eq_braced, h.eq_append]
    exact (List.prefix_append _ _).isInfix
  have hproper : IsContent (assetOpenStart ++ name) :=
    hps _ ((braced_infix_render hps hclose).1 hinfix)
  exact hproper.open_notMem (List.mem_append_right _ hmem)

/-- Replacing asset sections of some pieces gives pieces whose holes were there before, and the
asset sections among them are those that are not replaced. The induction is along the pieces, a
whole asset section at a time: a tag outside of the sections has no partner, and gets none. -/
theorem exists_render_filledIn (hnew : ∀ x ∈ new, isBrace x = false) (done : List Text)
    {ps : List Piece} (hps : ∀ x ∈ ps, x.Proper) : ∃ qs : List Piece, (∀ x ∈ qs, x.Proper) ∧
      (∀ c, .hole c ∈ qs → .hole c ∈ ps) ∧ render qs = filledIn new done (render ps) ∧
      assetLiterals (render qs) = (assetLiterals (render ps)).filter (· ∉ done) := by
  induction hn : ps.length using Nat.strongRecOn generalizing ps with
  | ind n ih =>
  subst hn
  match ps with
  | [] => exact ⟨[], by simp, by simp, rfl, rfl⟩
  | .plain c :: ps =>
    obtain ⟨hc, hrest⟩ := List.forall_mem_cons.1 hps
    obtain ⟨qs, hqs, hholes, htext, hliterals⟩ := ih ps.length (Nat.lt_succ_self _) hrest rfl
    have hhead : c ≠ '\x7b' := by
      rintro rfl
      exact absurd hc (by simp [Piece.Proper, isBrace])
    refine ⟨.plain c :: qs, List.forall_mem_cons.2 ⟨hc, hqs⟩, fun d hd => ?_, ?_, ?_⟩
    · exact List.mem_cons_of_mem _ (hholes d (by simpa using hd))
    · rw [render_cons, render_cons, htext]
      exact (filledIn_of_none (assetSection_eq_none_of_head hhead) new done).symm
    · rw [render_cons, render_cons]
      exact (assetLiterals_of_head hhead).trans
        (hliterals.trans (congrArg _ (assetLiterals_of_head hhead).symm))
  | .hole d :: ps =>
    obtain ⟨hd, hrest⟩ := List.forall_mem_cons.1 hps
    cases hsection : assetSection (render (.hole d :: ps)) with
    | some found =>
      obtain ⟨⟨name, inner⟩, size⟩ := found
      obtain ⟨as, bs, rfl, -, rfl, -, -, rfl⟩ := (assetSection_render_iff hd hrest).1 hsection
      obtain ⟨qs, hqs, hholes, htext, hliterals⟩ := ih bs.length (by simp; omega)
        (fun x hx => hrest x (by simp [hx])) rfl
      let block := Piece.hole (assetOpenStart ++ name) :: as ++ [.hole (assetCloseStart ++ name)]
      have hsplit : Piece.hole (assetOpenStart ++ name) ::
          (as ++ .hole (assetCloseStart ++ name) :: bs) = block ++ bs := by
        simp [block]
      rw [hsplit] at hps hsection ⊢
      rw [List.forall_mem_append] at hps
      rw [render_append] at hsection ⊢
      rw [filledIn_of_some hsection, assetLiterals_of_some hsection]
      have hkept := (isSection_of_assetSection hsection).assetSection_append (render qs)
      by_cases hdone : render block ∈ done
      · have hbrace : '\x7b' ∉ new := fun hmem => absurd (hnew _ hmem) (by decide)
        refine ⟨new.map .plain ++ qs, ?_, fun c hc => ?_, ?_, ?_⟩
        · exact List.forall_mem_append.2 ⟨List.forall_mem_map.2 hnew, hqs⟩
        · exact List.mem_append_right _ (hholes c (by simpa using hc))
        · rw [render_append, render_map_plain, htext, blockText_of_mem hdone]
        · rw [render_append, render_map_plain, assetLiterals_append hbrace, hliterals,
            List.filter_cons_of_neg (by simpa using hdone)]
      · refine ⟨block ++ qs, List.forall_mem_append.2 ⟨hps.1, hqs⟩, fun c hc => ?_, ?_, ?_⟩
        · exact List.mem_append.2 ((List.mem_append.1 hc).imp_right (hholes c))
        · rw [render_append, htext, blockText_of_notMem hdone]
        · rw [render_append, assetLiterals_of_some hkept, hliterals,
            List.filter_cons_of_pos (by simpa using hdone)]
    | none =>
      obtain ⟨qs, hqs, hholes, htext, hliterals⟩ := ih ps.length (Nat.lt_succ_self _) hrest rfl
      have hnone := assetSection_eq_none_of_holes hd hrest hqs hholes hsection
      refine ⟨.hole d :: qs, List.forall_mem_cons.2 ⟨hd, hqs⟩, fun c hc => ?_, ?_, ?_⟩
      · rcases List.mem_cons.1 hc with hc | hc
        · exact hc ▸ List.mem_cons_self
        · exact List.mem_cons_of_mem _ (hholes c hc)
      · rw [render_cons, render_cons, htext]
        exact (Text.replaceFound_append fun s => assetSection_eq_none_in_hole hd hsection).symm
      · rw [assetLiterals_of_hole hd hnone, assetLiterals_of_hole hd hsection, hliterals]

/-- The asset sections that are left are those that are not replaced. -/
theorem assetLiterals_filledIn (ht : PlaceholdersOnly t) (hnew : ∀ x ∈ new, isBrace x = false)
    (done : List Text) :
    assetLiterals (filledIn new done t) = (assetLiterals t).filter (· ∉ done) := by
  obtain ⟨ps, hps, rfl⟩ := exists_render ht
  obtain ⟨qs, -, -, htext, hliterals⟩ := exists_render_filledIn hnew done hps
  rw [← htext, hliterals]

theorem findAssetBlocks_blocksReplaced (ht : PlaceholdersOnly t)
    (hnew : ∀ x ∈ new, isBrace x = false) : findAssetBlocks (blocksReplaced t new) = [] := by
  have hleft := assetLiterals_filledIn ht hnew (assetLiterals t)
  rw [← blocksReplaced_eq fun a ha => ha, List.filter_eq_nil_iff.2 fun a ha => by simpa using ha]
    at hleft
  exact List.map_eq_nil_iff.1 hleft

/-- If no asset section holds another one, then each literal that is left is found just as often as
there are asset sections with it. -/
theorem timesFound_filledIn (ht : PlaceholdersOnly t) (hnew : ∀ x ∈ new, isBrace x = false)
    (h : ∀ a ∈ assetLiterals t, Unnested a) {l name inner : Text} {done : List Text}
    (hl : IsSection name inner l) (hdone : l ∉ done) :
    Text.timesFound l (filledIn new done t) = (assetLiterals t).count l := by
  have hleft := assetLiterals_filledIn ht hnew done
  rw [timesFound_eq_count hl, hleft, List.count_filter (by simpa using hdone)]
  rw [hleft]
  exact fun a ha => h a (List.mem_of_mem_filter ha)

end Plan

theorem mem_assetTokens {t : Text} {b : AssetBlock} :
    b ∈ (tokenize t).filterMap Token.assetBlock? ↔ b ∈ findAssetBlocks t := by
  rw [← assetBlock_mem_tokenize, List.mem_filterMap]
  constructor
  · rintro ⟨k, hk, hb⟩
    cases k with
    | assetBlock b' =>
      obtain rfl := Option.some.inj hb
      exact hk
    | var v => exact absurd hb (by simp [Token.assetBlock?])
    | sectionMarker m => exact absurd hb (by simp [Token.assetBlock?])
  · exact fun h => ⟨_, h, rfl⟩

/-- **Asset sections are replaced at their places exactly if each literal is found only where it is
an asset section**: if asset sections of one name have one literal, then a plan with data for asset
sections replaces every asset section by the text of that data and changes nothing else, provided
each of its edits finds its literal just as often as there are asset sections with it. That is so
in a text of placeholders whose asset sections hold no others. In a text of placeholders no asset
section is left then, and nothing less will do, unless there is no text to put in their places. -/
theorem blocksReplaced_planSubstitution {linear : LinearText} {assets : List AssetSection}
    {minPadding : Json} {new : Text} (hassets : assets ≠ [])
    (hrender : renderAssets assets minPadding = .ok new) (hnew : ∀ x ∈ new, isBrace x = false)
    (hsame : ∀ b ∈ findAssetBlocks linear.text, ∀ b' ∈ findAssetBlocks linear.text,
      b.name = b'.name → b.raw = b'.raw) :
    ∃ edits after, planSubstitution .empty assets (.ofLinear linear) minPadding = .ok edits ∧
      applyTextEdits linear.text edits = .ok after ∧
      (ReplacesBlocksOnly linear.text edits → after = blocksReplaced linear.text new) ∧
      (PlaceholdersOnly linear.text →
        ((∀ b ∈ findAssetBlocks linear.text, Unnested b.raw) →
          ReplacesBlocksOnly linear.text edits) ∧
        (after = blocksReplaced linear.text new →
          findAssetBlocks after = [] ∧ (new ≠ [] → ReplacesBlocksOnly linear.text edits))) := by
  obtain ⟨text, origins, revision⟩ := linear
  have hk := knownByName_assetLiterals hsame
  let raws := distinctFrom [] (((tokenize text).filterMap Token.assetBlock?).map (·.raw))
  have hmem : ∀ l, l ∈ raws ↔ l ∈ assetLiterals text := by
    intro l
    rw [mem_distinctFrom, and_iff_left List.not_mem_nil, assetLiterals, List.mem_map, List.mem_map]
    simp only [mem_assetTokens]
  have hedits : blockEdits new [] ((tokenize text).filterMap Token.assetBlock?) =
      raws.map fun l => replacingEdit (l, new) :=
    @blockEdits_eq _ [] _ (name_eq_iff_raw_eq hsame) (by simp) (fun b => mem_assetTokens.1) new
  have hplan : planSubstitution .empty assets (.ofLinear ⟨text, origins, revision⟩) minPadding =
      .ok (raws.map fun l => replacingEdit (l, new)) := by
    rw [planSubstitution, planBlocks, if_neg (by simpa using hassets), hrender, ← hedits]
    exact congrArg Except.ok (List.append_nil _)
  have hall : ∀ a ∈ assetLiterals text, a ∈ assetLiterals text := fun a ha => ha
  have hraws : ∀ l ∈ raws, l ∈ assetLiterals text := fun l => (hmem l).1
  have hne : ∀ l ∈ raws, l ≠ [] := fun l hl => hk.ne_nil (hraws l hl)
  have hnodup := nodup_distinctFrom [] (((tokenize text).filterMap Token.assetBlock?).map (·.raw))
  have hnil : ∀ l ∈ raws, l ∉ [] := fun l _ => List.not_mem_nil
  have hreplaced : blocksReplaced text new = filledIn new (raws.reverse ++ []) text :=
    blocksReplaced_eq fun a ha => by simpa using (hmem a).2 ha
  refine ⟨_, _, hplan, applyTextEdits_replacing hne new text, fun honly => ?_, fun ht =>
    ⟨fun hunnested => ?_, fun hend => ⟨?_, fun hnonempty => ?_⟩⟩⟩
  · have hrun := @replaceEach_filledIn _ raws [] _ text hk hnew hall hraws hnodup hnil
    rw [filledIn_nil] at hrun
    rw [hreplaced, hrun ((replacesBlocksOnly_iff hne).1 honly)]
  · have hrun := @timesFound_of_all _ raws [] _ text hk hnew hall hraws hnodup hnil
    rw [filledIn_nil] at hrun
    refine (replacesBlocksOnly_iff hne).2 (hrun fun done l hl hdone => ?_)
    obtain ⟨name, inner, hsec⟩ := hk.isSection l hl
    exact timesFound_filledIn ht hnew (List.forall_mem_map.2 hunnested) hsec hdone
  · rw [hend, findAssetBlocks_blocksReplaced ht hnew]
  · have hrun := @timesFound_of_replaceEach _ raws [] _ text hk hnew hall hraws hnodup hnil
      hnonempty (open_notMem_of_placeholdersOnly ht)
    rw [filledIn_nil] at hrun
    exact (replacesBlocksOnly_iff hne).2 (hrun (hend.trans hreplaced))

/-- An asset section with some pieces inside it. -/
def sectionPieces (name : Text) (inner : List Piece) : List Piece :=
  .hole (assetOpenStart ++ name) :: inner ++ [.hole (assetCloseStart ++ name)]

/-- Two asset sections of one name with another one between them. -/
def threeSections : Text :=
  render (sectionPieces ['S'] [.plain 'a'] ++ .plain 'b' :: sectionPieces ['X'] [] ++
    sectionPieces ['S'] [.plain 'a'])

/-- An asset section, and behind it another one in which the first one stands again. -/
def nestedSections : Text :=
  render (sectionPieces ['X'] [.plain 'a'] ++ .plain '\n' ::
    sectionPieces ['S'] (sectionPieces ['X'] [.plain 'a']))

/-- Data for asset sections: a title without fields. -/
def titleOnly : List AssetSection :=
  [{ title := .text ['T'] }]

theorem renderAssets_titleOnly : renderAssets titleOnly = .ok ['T'] := by cbv

instance (a : Text) : Decidable (Unnested a) :=
  decidable_of_iff (∀ p < a.length, p ≠ 0 → tag assetOpening '\x7d' (a.drop p) = none) (by
    constructor
    · intro h p stop name htag
      obtain ⟨size, hsome, -⟩ := tagAt_iff.1 htag
      have hlt := htag.bounds
      by_contra hp
      rw [h p (by omega) hp] at hsome
      exact absurd hsome (by simp)
    · intro h p hp hne
      refine Option.eq_none_iff_forall_ne_some.2 fun ⟨name, size⟩ hsome => hne ?_
      exact h p _ name (tagAt_iff.2 ⟨size, hsome, rfl⟩))

theorem placeholdersOnly_threeSections : PlaceholdersOnly threeSections :=
  placeholdersOnly_render (by decide)

theorem placeholdersOnly_nestedSections : PlaceholdersOnly nestedSections :=
  placeholdersOnly_render (by decide)

theorem blocksReplaced_threeSections :
    PlaceholdersOnly threeSections ∧ titleOnly ≠ [] ∧ renderAssets titleOnly = .ok ['T'] ∧
      (∀ x ∈ ['T'], isBrace x = false) ∧
      (∀ b ∈ findAssetBlocks threeSections, ∀ b' ∈ findAssetBlocks threeSections,
        b.name = b'.name → b.raw = b'.raw) ∧
      (∀ b ∈ findAssetBlocks threeSections, Unnested b.raw) ∧
      ∃ edits, planSubstitution .empty titleOnly (.ofLinear ⟨threeSections, [], .null⟩) =
          .ok edits ∧
        edits.length = 2 ∧ ReplacesBlocksOnly threeSections edits ∧
        applyTextEdits threeSections edits = .ok ['T', 'b', 'T', 'T'] := by
  have hsame : ∀ b ∈ findAssetBlocks threeSections, ∀ b' ∈ findAssetBlocks threeSections,
      b.name = b'.name → b.raw = b'.raw := by decide +kernel
  have hunnested : ∀ b ∈ findAssetBlocks threeSections, Unnested b.raw := by decide +kernel
  have hbrace : ∀ x ∈ ['T'], isBrace x = false := by simp [isBrace]
  obtain ⟨edits, after, hplan, happly, hreplaced, hplaceholders⟩ :=
    @blocksReplaced_planSubstitution ⟨threeSections, [], .null⟩ titleOnly _ ['T'] (by decide)
      renderAssets_titleOnly hbrace hsame
  have honly := (hplaceholders placeholdersOnly_threeSections).1 hunnested
  have hafter : blocksReplaced threeSections ['T'] = ['T', 'b', 'T', 'T'] := by cbv
  have hlength : (List.length <$> planSubstitution .empty titleOnly
      (.ofLinear ⟨threeSections, [], .null⟩)) = .ok 2 := by cbv
  rw [hreplaced honly, hafter] at happly
  rw [hplan] at hlength
  exact ⟨placeholdersOnly_threeSections, by decide, renderAssets_titleOnly, hbrace, hsame,
    hunnested, edits, hplan, Except.ok.inj hlength, honly, happly⟩

/-- The first asset section is replaced inside the second one too, which is not found any more. -/
theorem blocksReplaced_ne_nestedSections :
    PlaceholdersOnly nestedSections ∧ renderAssets titleOnly = .ok ['T'] ∧
      (∀ b ∈ findAssetBlocks nestedSections, ∀ b' ∈ findAssetBlocks nestedSections,
        b.name = b'.name → b.raw = b'.raw) ∧
      ∃ edits after, planSubstitution .empty titleOnly (.ofLinear ⟨nestedSections, [], .null⟩) =
          .ok edits ∧
        applyTextEdits nestedSections edits = .ok after ∧
        after ≠ blocksReplaced nestedSections ['T'] ∧ findAssetBlocks after ≠ [] := by
  have hresult : (planSubstitution .empty titleOnly (.ofLinear ⟨nestedSections, [], .null⟩) >>=
      applyTextEdits nestedSections) =
        .ok (['T', '\n'] ++ render (sectionPieces ['S'] [.plain 'T'])) := by cbv
  have hafter : blocksReplaced nestedSections ['T'] = ['T', '\n', 'T'] := by cbv
  obtain ⟨edits, hplan, happly⟩ := bind_eq_ok_iff.1 hresult
  refine ⟨placeholdersOnly_nestedSections, renderAssets_titleOnly, by decide +kernel, edits, _,
    hplan, happly, ?_, ?_⟩
  · rw [hafter]
    decide
  · decide +kernel

end DocTemplate
