import DocTemplate.Proofs.Plan.Placeholders
import DocTemplate.Proofs.Splice

/-!
# Filling placeholders

In a text of proper pieces, replacing a placeholder wherever it stands fills the holes with its
content (`replaceAll_render`). A text that is filled in holds no braces, so no step makes a
placeholder that the next step could find, and filling the holes one kind after another is filling
them all at once (`applyTextEdits_render`). That in turn is a splice of the text
(`spliceFrom_render`).
-/

namespace DocTemplate

/-! ## Replacing placeholders -/

namespace Text

theorem replaceFrom_length (find new a b : Text) :
    replaceFrom find new a.length (a ++ b) = replaceFrom find new 0 b := by
  induction a with
  | nil => rfl
  | cons c a ih => exact ih

theorem replaceFrom_of_start {find : Text} (new b : Text) (hf : find ≠ []) :
    replaceFrom find new 0 (find ++ b) = new ++ replaceFrom find new 0 b := by
  obtain ⟨x, f, rfl⟩ := List.exists_cons_of_ne_nil hf
  rw [List.cons_append, replaceFrom]
  simp only [← List.cons_append, stripStart_append, List.length_cons, Nat.add_sub_cancel]
  rw [replaceFrom_length]

/-- Nothing is replaced in a stretch of a text in which no occurrence starts. -/
theorem replaceFrom_append {find new a b : Text}
    (h : ∀ p q, a ++ b = p ++ (find ++ q) → a.length ≤ p.length) :
    replaceFrom find new 0 (a ++ b) = a ++ replaceFrom find new 0 b := by
  induction a with
  | nil => rfl
  | cons c a ih =>
    rw [List.cons_append, replaceFrom]
    cases hs : stripStart find (c :: (a ++ b)) with
    | some q =>
      have := h [] q (by simpa using eq_append_of_stripStart hs)
      simp at this
    | none =>
      refine congrArg _ (ih fun p q hp => ?_)
      have := h (c :: p) q (congrArg _ hp)
      simpa using this

end Text

/-- Replacing a placeholder wherever it stands fills the holes that have its content. -/
theorem replaceAll_render {ps : List Piece} {d : Text} (hps : ∀ x ∈ ps, x.Proper) (hd : '\x7d' ∉ d)
    (new : Text) :
    (render ps).replaceAll (braced d) new =
      render (ps.flatMap (Piece.fill fun c => if c = d then some new else none)) := by
  rw [Text.replaceAll_eq_replaceFrom (by simp [braced])]
  induction ps with
  | nil => rfl
  | cons x ps ih =>
    have hproper := hps x List.mem_cons_self
    have hrest := ih fun y hy => hps y (List.mem_cons_of_mem _ hy)
    rw [render_cons, List.flatMap_cons, render_append, ← hrest]
    cases x with
    | plain c =>
      refine Text.replaceFrom_append fun p q h => ?_
      cases p with
      | nil =>
        rw [List.nil_append, braced_append] at h
        obtain ⟨rfl, -⟩ := List.cons.inj h
        exact absurd hproper (by simp [Piece.Proper, isBrace])
      | cons _ p => exact Nat.le_add_left 1 p.length
    | hole c =>
      by_cases hc : c = d
      · subst hc
        rw [Piece.text, Text.replaceFrom_of_start _ _ (by simp [braced])]
        simp [Piece.fill]
      · have hfill : render ((Piece.hole c).fill fun c => if c = d then some new else none) =
            braced c := by
          simp [Piece.fill, hc, Piece.text]
        rw [hfill]
        refine Text.replaceFrom_append fun p q h => ?_
        rcases occurrence_cases hproper hd h with ⟨-, hcd, -⟩ | ⟨r, rfl, -⟩
        · exact absurd hcd hc
        · rw [List.length_append]
          exact Nat.le_add_right _ _

/-- Filling holes with what `f` knows and then with what `g` knows is filling them once. -/
theorem flatMap_fill_fill (ps : List Piece) (f g : Text → Option Text) :
    (ps.flatMap (Piece.fill f)).flatMap (Piece.fill g) =
      ps.flatMap (Piece.fill fun c => (f c).or (g c)) := by
  rw [List.flatMap_assoc]
  refine List.flatMap_congr fun x _ => ?_
  cases x with
  | plain c => rfl
  | hole c =>
    cases hf : f c with
    | none => simp [Piece.fill, hf]
    | some v =>
      simp only [Piece.fill, hf, Option.elim_some, Option.some_or, List.flatMap_map]
      exact List.flatMap_pure_eq_map _ _

theorem proper_of_mem_fill {ps : List Piece} {f : Text → Option Text} (hps : ∀ x ∈ ps, x.Proper)
    (hf : ∀ c v, f c = some v → ∀ x ∈ v, isBrace x = false) :
    ∀ x ∈ ps.flatMap (Piece.fill f), x.Proper := by
  intro y hy
  obtain ⟨x, hx, hy⟩ := List.mem_flatMap.1 hy
  cases x with
  | plain c =>
    obtain rfl := List.mem_singleton.1 hy
    exact hps _ hx
  | hole c =>
    cases hc : f c with
    | none =>
      rw [Piece.fill, hc] at hy
      obtain rfl := List.mem_singleton.1 hy
      exact hps _ hx
    | some v =>
      rw [Piece.fill, hc] at hy
      obtain ⟨z, hz, rfl⟩ := List.mem_map.1 hy
      exact hf c v hc z hz

theorem hole_mem_fill {ps : List Piece} {f : Text → Option Text} {c : Text} :
    .hole c ∈ ps.flatMap (Piece.fill f) ↔ .hole c ∈ ps ∧ f c = none := by
  rw [List.mem_flatMap]
  constructor
  · rintro ⟨x, hx, hc⟩
    cases x with
    | plain d => exact absurd hc (by simp [Piece.fill])
    | hole d =>
      cases hd : f d with
      | none =>
        rw [Piece.fill, hd] at hc
        obtain rfl := Piece.hole.inj (List.mem_singleton.1 hc)
        exact ⟨hx, hd⟩
      | some v => exact absurd hc (by simp [Piece.fill, hd])
  · rintro ⟨hc, hf⟩
    exact ⟨_, hc, by simp [Piece.fill, hf]⟩

/-- The edit that puts a text in the place of another one wherever that one stands. -/
abbrev replacingEdit (r : Text × Text) : Edit :=
  .replaceText (.text r.1) (.text r.2) (.bool true)

/-- Replacing placeholders one after another fills every hole with the first text that there is for
its placeholder. -/
theorem applyTextEdits_render {rs : List (Text × Text)} {ps : List Piece}
    (hps : ∀ x ∈ ps, x.Proper)
    (hrs : ∀ r ∈ rs, (∃ d, '\x7d' ∉ d ∧ r.1 = braced d) ∧ ∀ x ∈ r.2, isBrace x = false) :
    applyTextEdits (render ps) (rs.map replacingEdit) =
      .ok (render (ps.flatMap (Piece.fill fun c => rs.lookup (braced c)))) := by
  induction rs generalizing ps with
  | nil =>
    have hid : (Piece.fill fun c => List.lookup (braced c) ([] : List (Text × Text))) =
        fun x => [x] := by
      funext x
      cases x <;> rfl
    rw [hid, List.flatMap_singleton']
    rfl
  | cons r rs ih =>
    obtain ⟨find, new⟩ := r
    obtain ⟨⟨d, hd, rfl⟩, hnew⟩ := hrs _ List.mem_cons_self
    have hstep : (replacingEdit (braced d, new)).applyText (render ps) =
        .ok (render (ps.flatMap (Piece.fill fun c => if c = d then some new else none))) := by
      rw [← replaceAll_render hps hd]
      rfl
    have hproper : ∀ x ∈ ps.flatMap (Piece.fill fun c => if c = d then some new else none),
        x.Proper := by
      refine proper_of_mem_fill hps fun c v hv => ?_
      split at hv
      · obtain rfl := Option.some.inj hv
        exact hnew
      · exact absurd hv (by simp)
    have hlookup : (fun c => (if c = d then some new else none).or (rs.lookup (braced c))) =
        fun c => ((braced d, new) :: rs).lookup (braced c) := by
      funext c
      by_cases hc : c = d
      · simp [hc]
      · rw [List.lookup_cons, beq_false_of_ne (braced_injective.ne hc), if_neg hc]
        rfl
    rw [← hlookup, ← flatMap_fill_fill, ← ih hproper fun r hr => hrs r (List.mem_cons_of_mem _ hr)]
    simp only [applyTextEdits, List.map_cons, List.foldlM_cons, hstep]
    rfl

/-! ## Filling as a splice -/

/-- The parts of the text of some pieces where there is something to fill in, if the text starts at
offset `offset`. -/
def filledParts (f : Text → Option Text) (offset : Nat) : List Piece → List (Replacement Char)
  | [] => []
  | .plain _ :: ps => filledParts f (offset + 1) ps
  | .hole c :: ps =>
    let stop := offset + (braced c).length
    (f c).elim [] (fun value => [⟨offset, stop, value⟩]) ++ filledParts f stop ps

variable {f : Text → Option Text} {offset : Nat} {ps : List Piece} {r : Replacement Char}

theorem mem_filledParts_hole {c : Text} :
    r ∈ filledParts f offset (.hole c :: ps) ↔
      (∃ value, f c = some value ∧ r = ⟨offset, offset + (braced c).length, value⟩) ∨
        r ∈ filledParts f (offset + (braced c).length) ps := by
  rw [filledParts, List.mem_append]
  cases f c <;> simp

theorem bounds_of_mem_filledParts (h : r ∈ filledParts f offset ps) :
    offset ≤ r.start ∧ r.start < r.stop := by
  induction ps generalizing offset with
  | nil => simp [filledParts] at h
  | cons x ps ih =>
    cases x with
    | plain c =>
      have := ih h
      omega
    | hole c =>
      rcases mem_filledParts_hole.1 h with ⟨value, -, rfl⟩ | h
      · rw [length_braced]
        exact ⟨Nat.le_refl _, Nat.lt_add_of_pos_right (Nat.succ_pos _)⟩
      · have := ih h
        omega

theorem pairwise_filledParts (f : Text → Option Text) (offset : Nat) (ps : List Piece) :
    (filledParts f offset ps).Pairwise fun a b => a.start < b.start := by
  induction ps generalizing offset with
  | nil => exact .nil
  | cons x ps ih =>
    cases x with
    | plain c => exact ih (offset + 1)
    | hole c =>
      rw [filledParts]
      cases f c with
      | none => exact ih _
      | some value =>
        refine .cons (fun b hb => ?_) (ih _)
        have := (bounds_of_mem_filledParts hb).1
        rw [length_braced] at this
        show offset < b.start
        omega

theorem mem_filledParts :
    r ∈ filledParts f offset ps ↔ ∃ as c bs value, ps = as ++ .hole c :: bs ∧ f c = some value ∧
      r = ⟨offset + (render as).length, offset + (render as).length + (braced c).length,
        value⟩ := by
  induction ps generalizing offset with
  | nil => simp [filledParts]
  | cons x ps ih =>
    constructor
    · intro h
      -- a part of the rest is a part of the whole, with the first piece in front of it
      have later : ∀ {start}, start = offset + x.text.length → r ∈ filledParts f start ps →
          ∃ as c bs value, x :: ps = as ++ .hole c :: bs ∧ f c = some value ∧
            r = ⟨offset + (render as).length, offset + (render as).length + (braced c).length,
              value⟩ := by
        rintro start rfl h
        obtain ⟨as, c, bs, value, rfl, hc, rfl⟩ := ih.1 h
        refine ⟨x :: as, c, bs, value, rfl, hc, ?_⟩
        rw [render_cons, List.length_append, Nat.add_assoc offset]
      cases x with
      | plain c => exact later rfl h
      | hole c =>
        rcases mem_filledParts_hole.1 h with ⟨value, hc, rfl⟩ | h
        · exact ⟨[], c, ps, value, rfl, hc, rfl⟩
        · exact later rfl h
    · rintro ⟨as, c, bs, value, hps, hc, hr⟩
      cases as with
      | nil =>
        obtain ⟨rfl, rfl⟩ := List.cons.inj hps
        exact mem_filledParts_hole.2 (.inl ⟨value, hc, hr⟩)
      | cons y as =>
        obtain ⟨rfl, rfl⟩ := List.cons.inj hps
        rw [render_cons, List.length_append, ← Nat.add_assoc offset] at hr
        have later := ih.2 ⟨as, c, bs, value, rfl, hc, hr⟩
        cases x with
        | plain d => exact later
        | hole d => exact mem_filledParts_hole.2 (.inr later)

/-- Filling the holes of a text is replacing the parts of it where there is something to fill in. -/
theorem spliceFrom_render (f : Text → Option Text) (offset : Nat) (ps : List Piece) :
    spliceFrom offset (render ps) (filledParts f offset ps) =
      render (ps.flatMap (Piece.fill f)) := by
  induction ps generalizing offset with
  | nil => rfl
  | cons x ps ih =>
    rw [render_cons, List.flatMap_cons, render_append]
    cases x with
    | plain c =>
      rw [filledParts, spliceFrom_append]
      · exact congrArg _ (ih (offset + 1))
      · intro r hr
        have := bounds_of_mem_filledParts hr
        exact ⟨this.1, Nat.le_of_lt this.2⟩
    | hole c =>
      rw [filledParts]
      cases hc : f c with
      | none =>
        rw [Option.elim_none, List.nil_append, spliceFrom_append]
        · rw [Piece.text, ih, Piece.fill, hc]
          simp [Piece.text]
        · intro r hr
          have := bounds_of_mem_filledParts hr
          exact ⟨this.1, Nat.le_of_lt this.2⟩
      | some value =>
        rw [Option.elim_some, List.singleton_append, Piece.text, spliceFrom_cons, ih, Piece.fill,
          hc, Option.elim_some, render_map_plain]

end DocTemplate
