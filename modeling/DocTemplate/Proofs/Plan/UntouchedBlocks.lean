import DocTemplate.Proofs.Failure
import DocTemplate.Proofs.Plan.Substitution

/-!
# Asset sections that a substitution leaves alone

In a text whose braces all belong to placeholders, the asset sections are stretches of pieces: an
opening tag, the pieces up to the first closing tag of the same name, and that tag
(`assetSection_render_iff`). Filling the holes of the text keeps every such stretch in which no hole
is filled, and it makes no new one, since what is filled in holds no brace (`assetLiterals_fill`).

A plan without data for asset sections still looks for the variables everywhere. So it keeps the
literals of the asset sections if and only if nothing that it looks for stands inside one of them
(`assetLiterals_planSubstitution_iff`).
-/

namespace DocTemplate

/-- The literals of the asset sections of a text. -/
def assetLiterals (t : Text) : List Text :=
  (findAssetBlocks t).map (·.raw)

theorem assetLiterals_eq (t : Text) : assetLiterals t = Text.literals assetSection t := by
  rw [assetLiterals, findAssetBlocks, List.map_map]
  rfl

/-! ## Asset sections of pieces -/

theorem closingTag_eq_braced (name : Text) :
    closingTag name = braced (assetCloseStart ++ name) := by
  simp [closingTag, assetClosing, variableOpening, braced]

theorem close_notMem_assetCloseStart {name : Text} (h : '\x7d' ∉ name) :
    '\x7d' ∉ assetCloseStart ++ name := by
  rw [List.mem_append, not_or]
  exact ⟨by decide, h⟩

section Pieces

variable {ps : List Piece} {d e name inner rest : Text} {size : Nat}

/-- An opening tag is a placeholder. -/
theorem tag_braced_iff (hd : IsContent d) :
    tag assetOpening '\x7d' (braced d ++ rest) = some (name, size) ↔
      d = assetOpenStart ++ name ∧ name ≠ [] ∧ size = (braced d).length := by
  have hopening : ∀ name : Text,
      assetOpening ++ name ++ ['\x7d', '\x7d'] = braced (assetOpenStart ++ name) := by
    intro name
    simp [assetOpening, variableOpening, braced]
  have hlength : ∀ name : Text,
      assetOpening.length + name.length + 2 = (braced (assetOpenStart ++ name)).length := by
    intro name
    rw [← hopening, List.length_append, List.length_append]
    rfl
  rw [tag_eq_some_iff, hlength, hopening]
  constructor
  · rintro ⟨⟨hc, hne⟩, hsize, rest', heq⟩
    have hclose : '\x7d' ∉ assetOpenStart ++ name := by
      rw [List.mem_append, not_or]
      exact ⟨by decide, hc⟩
    rcases occurrence_cases (p := []) hd hclose heq with ⟨-, rfl, -⟩ | ⟨r, hr, -⟩
    · exact ⟨rfl, hne, hsize⟩
    · have := congrArg List.length hr
      simp only [List.length_nil, List.length_append, length_braced] at this
      omega
  · rintro ⟨rfl, hne, rfl⟩
    exact ⟨⟨fun hc => hd.close_notMem (List.mem_append_right _ hc), hne⟩, rfl, rest, rfl⟩

/-- No tag starts at a character that is no opening brace. -/
theorem tag_eq_none_of_head {c : Char} {t : Text} (h : c ≠ '\x7b') :
    tag assetOpening '\x7d' (c :: t) = none := by
  refine Option.eq_none_iff_forall_ne_some.2 fun ⟨name, size⟩ htag => h ?_
  obtain ⟨-, -, rest, heq⟩ := tag_eq_some_iff.1 htag
  exact (List.cons.inj heq).1

/-- What stands before the first occurrence of a placeholder are the pieces in front of the first
hole with its content. -/
theorem before?_render_iff (hps : ∀ x ∈ ps, x.Proper) (he : '\x7d' ∉ e) :
    before? (braced e) (render ps) = some inner ↔
      ∃ as bs, ps = as ++ .hole e :: bs ∧ .hole e ∉ as ∧ render as = inner := by
  have hfound : ∀ as bs, render (as ++ .hole e :: bs) = render as ++ braced e ++ render bs := by
    intro as bs
    rw [render_append, render_cons, List.append_assoc]
    rfl
  rw [before?_eq_some_iff]
  constructor
  · rintro ⟨⟨rest, hrest⟩, hfirst⟩
    rw [List.append_assoc] at hrest
    obtain ⟨as, bs, rfl, rfl, rfl⟩ := exists_hole_of_render_eq hps he hrest
    refine ⟨as, bs, rfl, fun hmem => ?_, rfl⟩
    obtain ⟨as, cs, rfl⟩ := List.append_of_mem hmem
    refine hfirst (render as).length ?_ ⟨render cs ++ (braced e ++ render bs), ?_⟩
    · rw [hfound]
      simp only [List.length_append, length_braced]
      omega
    · rw [hrest, hfound, List.append_assoc, List.append_assoc, List.drop_left]
  · rintro ⟨as, bs, rfl, hnot, rfl⟩
    refine ⟨⟨render bs, hfound as bs⟩, fun k hk hstarts => hnot ?_⟩
    obtain ⟨q, hq⟩ := hstarts
    have hk' : k < (render (as ++ .hole e :: bs)).length := by
      rw [hfound]
      simp only [List.length_append]
      omega
    have hocc : render (as ++ .hole e :: bs) =
        (render (as ++ .hole e :: bs)).take k ++ (braced e ++ q) := by
      rw [hq, List.take_append_drop]
    obtain ⟨as', bs', hsplit, hlength, -⟩ := exists_hole_of_render_eq hps he hocc
    have hlength' : (render as').length = k := by
      rw [hlength, List.length_take_of_le hk'.le]
    -- the occurrence is in front of the one at the end of `as`, so it is one of the holes of `as`
    rcases List.append_eq_append_iff.1 hsplit with ⟨r, rfl, -⟩ | ⟨r, rfl, hr⟩
    · rw [render_append, List.length_append] at hlength'
      omega
    · cases r with
      | nil =>
        rw [List.append_nil] at hk
        omega
      | cons x r =>
        obtain ⟨rfl, -⟩ := List.cons.inj hr
        exact List.mem_append_right _ List.mem_cons_self

/-- An asset section stands at the start of some pieces if the first of them is an opening tag and
one behind it is the closing tag of the same name. -/
theorem assetSection_render_iff (hd : IsContent d) (hps : ∀ x ∈ ps, x.Proper) :
    assetSection (render (.hole d :: ps)) = some ((name, inner), size) ↔
      ∃ as bs, d = assetOpenStart ++ name ∧ name ≠ [] ∧
        ps = as ++ .hole (assetCloseStart ++ name) :: bs ∧
        .hole (assetCloseStart ++ name) ∉ as ∧ render as = inner ∧
        size = (render (.hole d :: as ++ [.hole (assetCloseStart ++ name)])).length := by
  have hsize : ∀ as : List Piece,
      (render (.hole d :: as ++ [.hole (assetCloseStart ++ name)])).length =
        (braced d).length + (render as).length + (closingTag name).length := by
    intro as
    rw [closingTag_eq_braced, render_append, render_cons, render_cons, render_nil,
      List.append_nil, List.length_append, List.length_append]
    rfl
  rw [render_cons, assetSection_eq_some_iff]
  constructor
  · rintro ⟨openSize, htag, hbefore, rfl⟩
    obtain ⟨rfl, hne, rfl⟩ := (tag_braced_iff hd).1 htag
    have hclose : '\x7d' ∉ name := fun hc => hd.close_notMem (List.mem_append_right _ hc)
    rw [Piece.text, List.drop_left, closingTag_eq_braced,
      before?_render_iff hps (close_notMem_assetCloseStart hclose)] at hbefore
    obtain ⟨as, bs, hsplit, hnot, rfl⟩ := hbefore
    exact ⟨as, bs, rfl, hne, hsplit, hnot, rfl, (hsize as).symm⟩
  · rintro ⟨as, bs, rfl, hne, hsplit, hnot, rfl, rfl⟩
    have hclose : '\x7d' ∉ name := fun hc => hd.close_notMem (List.mem_append_right _ hc)
    refine ⟨_, (tag_braced_iff hd).2 ⟨rfl, hne, rfl⟩, ?_, hsize as⟩
    rw [Piece.text, List.drop_left, closingTag_eq_braced,
      before?_render_iff hps (close_notMem_assetCloseStart hclose)]
    exact ⟨as, bs, hsplit, hnot, rfl⟩

theorem assetLiterals_of_none {c : Char} {t : Text} (h : assetSection (c :: t) = none) :
    assetLiterals (c :: t) = assetLiterals t := by
  rw [assetLiterals_eq, assetLiterals_eq, Text.literals_of_none h]

theorem assetSection_eq_none_of_head {c : Char} {t : Text} (h : c ≠ '\x7b') :
    assetSection (c :: t) = none := by
  refine Option.eq_none_iff_forall_ne_some.2 fun found hfound => ?_
  obtain ⟨⟨name, inner⟩, size⟩ := found
  obtain ⟨openSize, htag, -⟩ := assetSection_eq_some_iff.1 hfound
  rw [tag_eq_none_of_head h] at htag
  exact absurd htag (by simp)

theorem assetLiterals_of_head {c : Char} {t : Text} (h : c ≠ '\x7b') :
    assetLiterals (c :: t) = assetLiterals t :=
  assetLiterals_of_none (assetSection_eq_none_of_head h)

/-- No asset section starts in a stretch without opening braces. -/
theorem assetLiterals_append {a t : Text} (h : '\x7b' ∉ a) :
    assetLiterals (a ++ t) = assetLiterals t := by
  induction a with
  | nil => rfl
  | cons c a ih =>
    rw [List.mem_cons, not_or] at h
    rw [List.cons_append, assetLiterals_of_head (Ne.symm h.1), ih h.2]

/-- No asset section starts inside a placeholder at which none starts. -/
theorem assetSection_eq_none_in_hole {s : Text} (hd : IsContent d)
    (h : assetSection (render (.hole d :: ps)) = none) (hs : s <:+ braced d) (hne : s ≠ []) :
    assetSection (s ++ render ps) = none := by
  change s <:+ '\x7b' :: '\x7b' :: (d ++ ['\x7d', '\x7d']) at hs
  rcases List.suffix_cons_iff.1 hs with rfl | hs
  · exact h
  rcases List.suffix_cons_iff.1 hs with rfl | hs
  · -- the content would start with a brace
    refine Option.eq_none_iff_forall_ne_some.2 fun ⟨⟨name, inner⟩, size⟩ hfound => ?_
    obtain ⟨openSize, htag, -⟩ := assetSection_eq_some_iff.1 hfound
    obtain ⟨-, -, rest, heq⟩ := tag_eq_some_iff.1 htag
    obtain ⟨x, d, rfl⟩ := List.exists_cons_of_ne_nil hd.ne_nil
    obtain ⟨rfl, -⟩ := List.cons.inj (List.cons.inj heq).2
    exact absurd List.mem_cons_self hd.open_notMem
  · obtain ⟨x, s, rfl⟩ := List.exists_cons_of_ne_nil hne
    refine assetSection_eq_none_of_head ?_
    rintro rfl
    have hmem := hs.subset List.mem_cons_self
    rw [List.mem_append] at hmem
    exact hmem.elim hd.open_notMem (by decide)

theorem assetLiterals_of_hole (hd : IsContent d)
    (h : assetSection (render (.hole d :: ps)) = none) :
    assetLiterals (render (.hole d :: ps)) = assetLiterals (render ps) := by
  rw [assetLiterals_eq, assetLiterals_eq, render_cons]
  exact Text.literals_append fun s => assetSection_eq_none_in_hole hd h

/-- Where no asset section starts, none starts with fewer holes behind: its closing tag would have
been there before. -/
theorem assetSection_eq_none_of_holes {qs : List Piece} (hd : IsContent d)
    (hps : ∀ x ∈ ps, x.Proper) (hqs : ∀ x ∈ qs, x.Proper)
    (hholes : ∀ c, .hole c ∈ qs → .hole c ∈ ps)
    (h : assetSection (render (.hole d :: ps)) = none) :
    assetSection (render (.hole d :: qs)) = none := by
  refine Option.eq_none_iff_forall_ne_some.2 fun ⟨⟨name, inner⟩, size⟩ hfound => ?_
  obtain ⟨as, bs, hopen, hne, rfl, -, -, -⟩ := (assetSection_render_iff hd hqs).1 hfound
  have hmem := hholes (assetCloseStart ++ name) (List.mem_append_right as List.mem_cons_self)
  obtain ⟨us, vs, hps', hfirst⟩ := List.eq_append_cons_of_mem hmem
  rw [(assetSection_render_iff hd hps).2 ⟨us, vs, hopen, hne, hps', hfirst, rfl, rfl⟩] at h
  exact absurd h (by simp)

/-- An asset section at the start of some pieces, and those of the pieces behind it. -/
theorem assetLiterals_of_section {as bs : List Piece} (hd : IsContent d)
    (hps : ∀ x ∈ as ++ .hole (assetCloseStart ++ name) :: bs, x.Proper)
    (hopen : d = assetOpenStart ++ name) (hne : name ≠ [])
    (hnot : .hole (assetCloseStart ++ name) ∉ as) :
    assetLiterals (render (.hole d :: as ++ .hole (assetCloseStart ++ name) :: bs)) =
      render (.hole d :: as ++ [.hole (assetCloseStart ++ name)]) :: assetLiterals (render bs) := by
  have hfound := (assetSection_render_iff hd hps).2 ⟨as, bs, hopen, hne, rfl, hnot, rfl, rfl⟩
  have htext : render (.hole d :: (as ++ .hole (assetCloseStart ++ name) :: bs)) =
      render (.hole d :: as ++ [.hole (assetCloseStart ++ name)]) ++ render bs := by
    rw [← render_append]
    simp
  rw [htext] at hfound
  rw [List.cons_append, htext, assetLiterals_eq, assetLiterals_eq]
  exact Text.literals_of_some fits_assetSection hfound

/-! ## Filling around asset sections -/

section Fill

variable {f : Text → Option Text}

theorem fill_eq_self (h : ∀ c, .hole c ∈ ps → f c = none) : ps.flatMap (Piece.fill f) = ps := by
  induction ps with
  | nil => rfl
  | cons x ps ih =>
    rw [List.flatMap_cons, ih fun c hc => h c (List.mem_cons_of_mem _ hc)]
    cases x with
    | plain c => rfl
    | hole c =>
      rw [Piece.fill, h c List.mem_cons_self]
      rfl

/-- Pieces that hold no placeholder to fill stay as they are. -/
theorem fill_eq_self_of_infix (h : ∀ c, braced c <:+: render ps → f c = none) :
    ps.flatMap (Piece.fill f) = ps := by
  refine fill_eq_self fun c hc => h c ?_
  obtain ⟨us, vs, rfl⟩ := List.append_of_mem hc
  refine ⟨render us, render vs, ?_⟩
  rw [render_append, render_cons, List.append_assoc]
  rfl

/-- Filling holes keeps the asset sections if no hole inside one of them is filled. The induction is
along the pieces, a whole asset section at a time: the tags outside of the sections have no partner,
and filling gives them none. -/
theorem assetLiterals_fill (hps : ∀ x ∈ ps, x.Proper)
    (hf : ∀ c v, f c = some v → ∀ x ∈ v, isBrace x = false)
    (hkeep : ∀ raw ∈ assetLiterals (render ps), ∀ c, braced c <:+: raw → f c = none) :
    assetLiterals (render (ps.flatMap (Piece.fill f))) = assetLiterals (render ps) := by
  induction hn : ps.length using Nat.strongRecOn generalizing ps with
  | ind n ih =>
  subst hn
  match ps with
  | [] => rfl
  | .plain c :: ps =>
    obtain ⟨hc, hrest⟩ := List.forall_mem_cons.1 hps
    have hskip : ∀ qs, assetLiterals (render (.plain c :: qs)) = assetLiterals (render qs) := by
      intro qs
      refine assetLiterals_of_head ?_
      rintro rfl
      exact absurd hc (by simp [Piece.Proper, isBrace])
    rw [hskip] at hkeep ⊢
    exact (hskip _).trans (ih ps.length (Nat.lt_succ_self _) hrest hkeep rfl)
  | .hole d :: ps =>
    obtain ⟨hd, hrest⟩ := List.forall_mem_cons.1 hps
    cases hsection : assetSection (render (.hole d :: ps)) with
    | some found =>
      obtain ⟨⟨name, inner⟩, size⟩ := found
      obtain ⟨as, bs, hopen, hne, rfl, hnot, -, -⟩ := (assetSection_render_iff hd hrest).1 hsection
      have hbs : ∀ x ∈ bs, x.Proper := fun x hx => hrest x (by simp [hx])
      have hliterals := assetLiterals_of_section hd hrest hopen hne hnot
      rw [← List.cons_append, hliterals, List.forall_mem_cons] at hkeep
      -- nothing is filled from the opening tag to the closing tag
      have hsplit : List.flatMap (Piece.fill f)
          (.hole d :: as ++ .hole (assetCloseStart ++ name) :: bs) =
            .hole d :: as ++ .hole (assetCloseStart ++ name) :: bs.flatMap (Piece.fill f) := by
        rw [List.append_cons, List.flatMap_append, fill_eq_self_of_infix hkeep.1,
          ← List.append_cons]
      have hproper : ∀ x ∈ as ++ .hole (assetCloseStart ++ name) :: bs.flatMap (Piece.fill f),
          x.Proper := by
        intro x hx
        rcases List.mem_append.1 hx with hx | hx
        · exact hrest x (List.mem_append_left _ hx)
        · rcases List.mem_cons.1 hx with rfl | hx
          · exact hrest _ (by simp)
          · exact proper_of_mem_fill hbs hf x hx
      rw [← List.cons_append, hsplit, hliterals, assetLiterals_of_section hd hproper hopen hne hnot]
      refine congrArg _ (ih bs.length ?_ hbs hkeep.2 rfl)
      simp only [List.length_cons, List.length_append]
      omega
    | none =>
      rw [assetLiterals_of_hole hd hsection] at hkeep ⊢
      have hbehind := ih ps.length (Nat.lt_succ_self _) hrest hkeep rfl
      rw [List.flatMap_cons]
      cases hfd : f d with
      | some value =>
        have hvalue : '\x7b' ∉ value := fun hmem =>
          absurd (hf d value hfd _ hmem) (by simp [isBrace])
        have hfill : (Piece.hole d).fill f = value.map .plain := by rw [Piece.fill, hfd]; rfl
        rw [hfill, render_append, render_map_plain, assetLiterals_append hvalue, hbehind]
      | none =>
        have hfill : (Piece.hole d).fill f = [.hole d] := by rw [Piece.fill, hfd]; rfl
        rw [hfill, List.singleton_append,
          assetLiterals_of_hole hd (assetSection_eq_none_of_holes hd hrest
            (proper_of_mem_fill hrest hf) (fun c hc => (hole_mem_fill.1 hc).1) hsection), hbehind]

end Fill

end Pieces

/-! ## The plan -/

theorem infix_of_mem_assetLiterals {t raw : Text} (h : raw ∈ assetLiterals t) : raw <:+: t := by
  obtain ⟨b, hb, rfl⟩ := List.mem_map.1 h
  obtain ⟨found, -, rfl⟩ := List.mem_map.1 hb
  exact ((List.take_prefix _ _).isInfix).trans (List.drop_suffix _ _).isInfix

/-- What is looked for is a placeholder, if the name of the variable holds no closing brace. -/
theorem exists_braced_of_mem_spellingsIn {t s name : Text} (hn : '\x7d' ∉ name)
    (h : s ∈ spellingsIn t name) : ∃ c, '\x7d' ∉ c ∧ s = braced c := by
  rcases mem_spellingsIn.1 h with h | ⟨v, hv, -, rfl⟩
  · simp only [usualSpellings, List.mem_append, List.mem_cons, List.not_mem_nil, or_false,
      List.mem_map] at h
    rcases h with (rfl | rfl) | ⟨type, -, rfl⟩
    · exact ⟨_, hn, rfl⟩
    · exact ⟨_, by simpa using hn, rfl⟩
    · have htype : '\x7d' ∉ type.name := by cases type <;> decide
      exact ⟨_, by simp [hn, htype], rfl⟩
  · obtain ⟨f, hf, hvar⟩ := mem_findVariables.1 hv
    obtain ⟨p, q, hocc, hc, hstart, hstop⟩ := occurrence_of_mem_findInGaps hf
    obtain ⟨-, -, rfl⟩ := variableOf_eq_some_iff.1 hvar
    refine ⟨f.value, hc.1, ?_⟩
    rw [hstart, hstop, slice_of_occurrence hocc]

/-- **Filling variables leaves the asset sections as they are exactly if no variable is looked for
inside one of them**: without data for asset sections, a plan that is carried out on a text of
placeholders leaves a text with the same literals of asset sections if and only if none of them
holds a form in which one of the names that have a value is looked for. -/
theorem assetLiterals_planSubstitution_iff {linear : LinearText} {values : OrderedMap Entry}
    (ht : PlaceholdersOnly linear.text) (hkeys : ∀ name ∈ values.keys, '\x7d' ∉ name)
    (hplain : ∀ e ∈ values.entries, e.2 = .data .null ∨ ∃ t, e.2 = .text t)
    (hbrace : ∀ e ∈ values.entries, ∀ x ∈ e.2.replacement, isBrace x = false)
    (minPadding : Json) :
    ∃ edits after, planSubstitution values [] (.ofLinear linear) minPadding = .ok edits ∧
      applyTextEdits linear.text edits = .ok after ∧
      (assetLiterals after = assetLiterals linear.text ↔
        ∀ raw ∈ assetLiterals linear.text, ∀ name ∈ values.keys,
          ∀ s ∈ spellingsIn linear.text name, ¬ s <:+: raw) := by
  obtain ⟨text, origins, revision⟩ := linear
  obtain ⟨ps, hps, rfl⟩ := exists_render ht
  have hform : ∀ r ∈ valueReplacements values (render ps),
      (∃ d, '\x7d' ∉ d ∧ r.1 = braced d) ∧ ∀ x ∈ r.2, isBrace x = false := by
    rintro ⟨s, new⟩ hr
    obtain ⟨e, he, hs, rfl⟩ := mem_valueReplacements.1 hr
    exact ⟨exists_braced_of_mem_spellingsIn (hkeys _ (List.mem_map_of_mem he)) hs, hbrace e he⟩
  have hvalue : ∀ c v, (valueReplacements values (render ps)).lookup (braced c) = some v →
      ∀ x ∈ v, isBrace x = false := by
    intro c v hv
    obtain ⟨as, bs, heq, -⟩ := List.lookup_eq_some_iff.1 hv
    exact (hform (braced c, v) (heq ▸ List.mem_append_right as List.mem_cons_self)).2
  refine ⟨_, render (ps.flatMap (Piece.fill fun c =>
    (valueReplacements values (render ps)).lookup (braced c))), rfl, ?_, ?_⟩
  · rw [List.nil_append, planValues_eq_of_plain hplain]
    exact applyTextEdits_render hps hform
  constructor
  · -- a form that is looked for stands nowhere in the text that is left
    intro hsame raw hraw name hname s hs hin
    obtain ⟨c, hc, rfl⟩ := exists_braced_of_mem_spellingsIn (hkeys name hname) hs
    have hleft := hin.trans (infix_of_mem_assetLiterals (hsame ▸ hraw))
    rw [braced_infix_render (proper_of_mem_fill hps hvalue) hc, hole_mem_fill] at hleft
    obtain ⟨e, he, rfl⟩ := List.mem_map.1 hname
    have hmem := mem_valueReplacements.2 ⟨e, he, hs, rfl⟩
    have hsome := List.lookup_isSome_iff.2 ⟨_, hmem, beq_self_eq_true _⟩
    rw [hleft.2] at hsome
    exact absurd hsome Bool.false_ne_true
  · intro hnone
    refine assetLiterals_fill hps hvalue fun raw hraw c hin => ?_
    refine Option.eq_none_iff_forall_ne_some.2 fun new hlookup => ?_
    obtain ⟨as, bs, heq, -⟩ := List.lookup_eq_some_iff.1 hlookup
    obtain ⟨e, he, hs, -⟩ :=
      mem_valueReplacements.1 (heq ▸ List.mem_append_right as List.mem_cons_self)
    exact hnone raw hraw e.1 (List.mem_map_of_mem he) _ hs hin

/-- A variable, and behind it an asset section that holds another placeholder. -/
def sectionText (content : Text) : Text :=
  render [.hole ['n'], .plain '\n', .hole (assetOpenStart ++ ['S']), .hole content,
    .hole (assetCloseStart ++ ['S'])]

theorem placeholdersOnly_sectionText {content : Text} (h : IsContent content) :
    PlaceholdersOnly (sectionText content) := by
  refine placeholdersOnly_render fun x hx => ?_
  simp only [List.mem_cons, List.not_mem_nil, or_false] at hx
  rcases hx with rfl | rfl | rfl | rfl | rfl
  · exact show IsContent _ by decide
  · rfl
  · exact show IsContent _ by decide
  · exact h
  · exact show IsContent _ by decide

theorem assetLiterals_otherVariable :
    PlaceholdersOnly (sectionText ['k']) ∧ (∀ name ∈ letterValues.keys, '\x7d' ∉ name) ∧
      (∀ e ∈ letterValues.entries, e.2 = .data .null ∨ ∃ t, e.2 = .text t) ∧
      (∀ e ∈ letterValues.entries, ∀ x ∈ e.2.replacement, isBrace x = false) ∧
      ∃ edits after, planSubstitution letterValues [] (.ofLinear ⟨sectionText ['k'], [], .null⟩)
          .null = .ok edits ∧
        applyTextEdits (sectionText ['k']) edits = .ok after ∧ after ≠ sectionText ['k'] ∧
        assetLiterals after = assetLiterals (sectionText ['k']) := by
  have ht := placeholdersOnly_sectionText (show IsContent ['k'] by decide)
  have hkeys : ∀ name ∈ letterValues.keys, '\x7d' ∉ name := by decide
  obtain ⟨edits, after, hplan, happly, hiff⟩ := @assetLiterals_planSubstitution_iff
    ⟨sectionText ['k'], [], .null⟩ letterValues ht hkeys plainValues_letter.plain
    plainValues_letter.isBrace_eq .null
  have hresult : (planSubstitution letterValues [] (.ofLinear ⟨sectionText ['k'], [], .null⟩)
      .null >>= applyTextEdits (sectionText ['k'])) =
        .ok (['B', 'o'] ++ (sectionText ['k']).drop 5) := by cbv
  obtain ⟨edits', hplan', happly'⟩ := bind_eq_ok_iff.1 hresult
  obtain rfl := Except.ok.inj (hplan.symm.trans hplan')
  obtain rfl := Except.ok.inj (happly.symm.trans happly')
  have hliterals : assetLiterals (sectionText ['k']) = [(sectionText ['k']).drop 6] := by cbv
  have hspellings : spellingsIn (sectionText ['k']) ['n'] = usualSpellings ['n'] := by cbv
  refine ⟨ht, hkeys, plainValues_letter.plain, plainValues_letter.isBrace_eq, edits, _, hplan,
    happly, by decide, hiff.2 fun raw hraw name hname s hs => ?_⟩
  obtain rfl := List.mem_singleton.1 (hliterals ▸ hraw)
  obtain rfl : name = ['n'] := by simpa [letterValues, OrderedMap.keys] using hname
  rw [hspellings] at hs
  have hall : ∀ s ∈ usualSpellings ['n'], ¬ s <:+: (sectionText ['k']).drop 6 := by decide
  exact hall s hs

/-- A variable inside an asset section is filled, though there is no data for asset sections. -/
theorem assetLiterals_ne_sameVariable :
    PlaceholdersOnly (sectionText ['n']) ∧ PlainValues letterValues ∧
      ∃ edits after, planSubstitution letterValues [] (.ofLinear ⟨sectionText ['n'], [], .null⟩) =
          .ok edits ∧
        applyTextEdits (sectionText ['n']) edits = .ok after ∧
        assetLiterals after ≠ assetLiterals (sectionText ['n']) := by
  have hresult : (planSubstitution letterValues [] (.ofLinear ⟨sectionText ['n'], [], .null⟩) >>=
      fun edits => assetLiterals <$> applyTextEdits (sectionText ['n']) edits) =
        .ok [braced (assetOpenStart ++ ['S']) ++ ['B', 'o'] ++
          braced (assetCloseStart ++ ['S'])] := by cbv
  have hliterals : assetLiterals (sectionText ['n']) = [(sectionText ['n']).drop 6] := by cbv
  obtain ⟨edits, hplan, hedits⟩ := bind_eq_ok_iff.1 hresult
  obtain ⟨after, happly, hafter⟩ := map_eq_ok_iff.1 hedits
  refine ⟨placeholdersOnly_sectionText (by decide), plainValues_letter, edits, after, hplan, happly,
    ?_⟩
  rw [hafter, hliterals]
  decide

end DocTemplate
