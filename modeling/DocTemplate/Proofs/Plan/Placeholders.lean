import DocTemplate.Plan.Substitution

/-!
# Texts of placeholders

The texts whose braces all belong to placeholders are those of pieces, plain characters and holes
(`exists_render`, `placeholdersOnly_render`), and what looks like a placeholder in such a text is
one of its holes (`exists_hole_of_render_eq`). That rests on `occurrence_cases`: no placeholder
starts inside another one.
-/

namespace DocTemplate

/-! ## Placeholders -/

/-- Whether a character is a brace. -/
def isBrace (c : Char) : Bool :=
  c == '\x7b' || c == '\x7d'

/-- What can stand in a placeholder: a text that is not empty and holds no brace. -/
structure IsContent (c : Text) : Prop where
  ne_nil : c ≠ []
  isBrace_eq : ∀ x ∈ c, isBrace x = false

instance (c : Text) : Decidable (IsContent c) :=
  decidable_of_iff (c ≠ [] ∧ (c.all fun x => !isBrace x) = true)
    ⟨fun h => ⟨h.1, by simpa using h.2⟩, fun h => ⟨h.1, by simpa using h.2⟩⟩

/-- Every brace of a text belongs to a placeholder. -/
def PlaceholdersOnly (t : Text) : Prop :=
  ∀ i x, t[i]? = some x → isBrace x = true →
    ∃ p c q, t = p ++ braced c ++ q ∧ IsContent c ∧ p.length ≤ i ∧ i < p.length + (braced c).length

theorem braced_append (c q : Text) :
    braced c ++ q = '\x7b' :: '\x7b' :: (c ++ '\x7d' :: '\x7d' :: q) := by
  simp [braced]

@[simp] theorem length_braced (c : Text) : (braced c).length = c.length + 4 := by
  simp only [braced, List.length_append, List.length_cons, List.length_nil]
  omega

theorem braced_injective : Function.Injective braced := by
  intro c d h
  simpa [braced] using h

theorem IsContent.open_notMem {c : Text} (h : IsContent c) : '\x7b' ∉ c := fun hc =>
  absurd (h.isBrace_eq _ hc) (by decide)

theorem IsContent.close_notMem {c : Text} (h : IsContent c) : '\x7d' ∉ c := fun hc =>
  absurd (h.isBrace_eq _ hc) (by decide)

/-- A text up to the first `x` is known from the whole. -/
theorem append_cons_inj {a b s t : Text} {x : Char} (ha : x ∉ a) (hb : x ∉ b)
    (h : a ++ x :: s = b ++ x :: t) : a = b ∧ s = t := by
  rcases List.append_eq_append_iff.1 h with ⟨r, rfl, hr⟩ | ⟨r, rfl, hr⟩
  · cases r with
    | nil => exact ⟨(List.append_nil a).symm, (List.cons.inj hr).2⟩
    | cons y r =>
      obtain ⟨rfl, -⟩ := List.cons.inj hr
      exact absurd (List.mem_append_right _ List.mem_cons_self) hb
  · cases r with
    | nil => exact ⟨List.append_nil b, (List.cons.inj hr).2.symm⟩
    | cons y r =>
      obtain ⟨rfl, -⟩ := List.cons.inj hr
      exact absurd (List.mem_append_right _ List.mem_cons_self) ha

/-- What looks like a placeholder in a text that starts with one is that one or stands behind
it. -/
theorem occurrence_cases {c d p q q' : Text} (hc : IsContent c) (hd : '\x7d' ∉ d)
    (h : braced c ++ q = p ++ (braced d ++ q')) :
    (p = [] ∧ c = d ∧ q = q') ∨ ∃ r, p = braced c ++ r ∧ q = r ++ (braced d ++ q') := by
  rw [braced_append, braced_append] at h
  match p with
  | [] =>
    simp only [List.nil_append, List.cons.injEq, true_and] at h
    obtain ⟨hcd, hq⟩ := append_cons_inj hc.close_notMem hd h
    exact .inl ⟨rfl, hcd, (List.cons.inj hq).2⟩
  | [_] =>
    -- the content would start with a brace
    obtain ⟨x, c', rfl⟩ := List.exists_cons_of_ne_nil hc.ne_nil
    simp only [List.cons_append, List.nil_append, List.cons.injEq] at h
    obtain ⟨-, -, rfl, -⟩ := h
    exact absurd List.mem_cons_self hc.open_notMem
  | a :: b :: p =>
    simp only [List.cons_append, List.cons.injEq] at h
    obtain ⟨rfl, rfl, h⟩ := h
    rcases List.append_eq_append_iff.1 h with ⟨r, rfl, hr⟩ | ⟨r, rfl, hr⟩
    · match r with
      | [] => simp at hr
      | [_] => simp at hr
      | a :: b :: r =>
        simp only [List.cons_append, List.cons.injEq] at hr
        obtain ⟨rfl, rfl, rfl⟩ := hr
        exact .inr ⟨r, by simp [braced], by rw [braced_append]⟩
    · match r with
      | [] => simp at hr
      | a :: r =>
        simp only [List.cons_append, List.cons.injEq] at hr
        obtain ⟨rfl, -⟩ := hr
        exact absurd (List.mem_append_right _ List.mem_cons_self) hc.open_notMem

/-! ## Pieces -/

/-- A piece of a text: a character that is no brace, or a placeholder. -/
inductive Piece where
  | plain (c : Char)
  | hole (content : Text)

namespace Piece

/-- The text of a piece. -/
def text : Piece → Text
  | plain c => [c]
  | hole content => braced content

/-- A piece is proper if it has just the braces that a placeholder has. -/
def Proper : Piece → Prop
  | plain c => isBrace c = false
  | hole content => IsContent content

instance : DecidablePred Proper
  | plain c => inferInstanceAs (Decidable (isBrace c = false))
  | hole content => inferInstanceAs (Decidable (IsContent content))

/-- A piece with the content that `f` knows filled in. -/
def fill (f : Text → Option Text) : Piece → List Piece
  | plain c => [plain c]
  | hole content => (f content).elim [hole content] fun value => value.map plain

end Piece

/-- The text of some pieces. -/
def render (ps : List Piece) : Text :=
  ps.flatMap Piece.text

@[simp] theorem render_nil : render [] = [] := rfl

@[simp] theorem render_cons (p : Piece) (ps : List Piece) :
    render (p :: ps) = p.text ++ render ps :=
  List.flatMap_cons

@[simp] theorem render_append (ps qs : List Piece) : render (ps ++ qs) = render ps ++ render qs :=
  List.flatMap_append

@[simp] theorem render_map_plain (t : Text) : render (t.map .plain) = t := by
  induction t with
  | nil => rfl
  | cons c t ih => rw [List.map_cons, render_cons, ih, Piece.text, List.singleton_append]

/-- What looks like a placeholder in the text of proper pieces is one of its holes. -/
theorem exists_hole_of_render_eq {ps : List Piece} {p d q : Text} (hps : ∀ x ∈ ps, x.Proper)
    (hd : '\x7d' ∉ d) (h : render ps = p ++ (braced d ++ q)) :
    ∃ as bs, ps = as ++ .hole d :: bs ∧ render as = p ∧ render bs = q := by
  induction ps generalizing p with
  | nil =>
    have := congrArg List.length h
    simp only [render_nil, List.length_nil, List.length_append, length_braced] at this
    omega
  | cons x ps ih =>
    have hproper := hps x List.mem_cons_self
    have hrest : ∀ y ∈ ps, y.Proper := fun y hy => hps y (List.mem_cons_of_mem _ hy)
    rw [render_cons] at h
    cases x with
    | plain c =>
      match p with
      | [] =>
        rw [braced_append] at h
        obtain ⟨rfl, -⟩ := List.cons.inj h
        exact absurd hproper (by simp [Piece.Proper, isBrace])
      | a :: p =>
        obtain ⟨rfl, htail⟩ := List.cons.inj h
        obtain ⟨as, bs, hps', rfl, rfl⟩ := ih hrest htail
        exact ⟨.plain c :: as, bs, congrArg _ hps', rfl, rfl⟩
    | hole c =>
      rcases occurrence_cases hproper hd h with ⟨rfl, rfl, rfl⟩ | ⟨r, rfl, htail⟩
      · exact ⟨[], ps, rfl, rfl, rfl⟩
      · obtain ⟨as, bs, hps', rfl, rfl⟩ := ih hrest htail
        exact ⟨.hole c :: as, bs, congrArg _ hps', rfl, rfl⟩

theorem braced_infix_render {ps : List Piece} {c : Text} (hps : ∀ x ∈ ps, x.Proper)
    (hc : '\x7d' ∉ c) : braced c <:+: render ps ↔ .hole c ∈ ps := by
  constructor
  · rintro ⟨p, q, h⟩
    rw [List.append_assoc] at h
    obtain ⟨as, bs, rfl, -, -⟩ := exists_hole_of_render_eq hps hc h.symm
    exact List.mem_append_right _ List.mem_cons_self
  · intro h
    obtain ⟨as, bs, rfl⟩ := List.append_of_mem h
    exact ⟨render as, render bs, by simp [Piece.text]⟩

/-- A text whose braces all belong to placeholders is made of proper pieces. -/
theorem exists_render {t : Text} (ht : PlaceholdersOnly t) :
    ∃ ps : List Piece, (∀ x ∈ ps, x.Proper) ∧ render ps = t := by
  induction hn : t.length using Nat.strongRecOn generalizing t with
  | ind n ih =>
  subst hn
  match t with
  | [] => exact ⟨[], by simp, rfl⟩
  | x :: t =>
    cases hx : isBrace x with
    | false =>
      -- no placeholder starts with `x`, so those of the rest are placeholders of the rest
      obtain ⟨ps, hps, rfl⟩ := ih t.length (by simp) (t := t) (fun i y hi hy => by
        obtain ⟨p, c, q, h, hc, hle, hlt⟩ := ht (i + 1) y (by simpa using hi) hy
        match p with
        | [] =>
          rw [List.nil_append, braced_append] at h
          obtain ⟨rfl, -⟩ := List.cons.inj h
          exact absurd hx (by decide)
        | a :: p =>
          obtain ⟨-, htail⟩ := List.cons.inj h
          simp only [List.length_cons] at hle hlt
          exact ⟨p, c, q, htail, hc, by omega, by omega⟩) rfl
      exact ⟨.plain x :: ps, List.forall_mem_cons.2 ⟨hx, hps⟩, rfl⟩
    | true =>
      -- the placeholder of a brace that comes first comes first
      obtain ⟨p, c, q, h, hc, hle, -⟩ := ht 0 x rfl hx
      obtain rfl : p = [] := List.eq_nil_of_length_eq_zero (by omega)
      rw [List.nil_append] at h
      obtain ⟨ps, hps, rfl⟩ := ih q.length (by rw [h]; simp) (t := q) (fun i y hi hy => by
        obtain ⟨p, d, q', h', hd, hle, hlt⟩ := ht (i + (braced c).length) y
          (by rw [h, List.getElem?_append_right (by omega), Nat.add_sub_cancel, hi]) hy
        rw [h, List.append_assoc] at h'
        rcases occurrence_cases hc hd.close_notMem h' with ⟨rfl, rfl, rfl⟩ | ⟨r, rfl, hq⟩
        · simp only [List.length_nil] at hlt
          omega
        · rw [List.length_append] at hle hlt
          exact ⟨r, d, q', by rw [hq, List.append_assoc], hd, by omega, by omega⟩) rfl
      exact ⟨.hole c :: ps, List.forall_mem_cons.2 ⟨hc, hps⟩, h.symm⟩

/-- The text of proper pieces has no braces but those of its holes. -/
theorem placeholdersOnly_render {ps : List Piece} (hps : ∀ x ∈ ps, x.Proper) :
    PlaceholdersOnly (render ps) := by
  induction ps with
  | nil => exact fun i x hi => absurd hi (by simp)
  | cons x ps ih =>
    have hrest := ih fun y hy => hps y (List.mem_cons_of_mem _ hy)
    have hx := hps x List.mem_cons_self
    intro i y hi hy
    rcases Nat.lt_or_ge i x.text.length with hlt | hge
    · cases x with
      | plain c =>
        obtain rfl : i = 0 := Nat.lt_one_iff.1 hlt
        obtain rfl : c = y := Option.some.inj hi
        exact absurd (hy.symm.trans hx) (by decide)
      | hole c =>
        exact ⟨[], c, render ps, rfl, hx, Nat.zero_le _, by rwa [List.length_nil, Nat.zero_add]⟩
    · rw [render_cons, List.getElem?_append_right hge] at hi
      obtain ⟨p, c, q, hocc, hc, h1, h2⟩ := hrest _ y hi hy
      refine ⟨x.text ++ p, c, q, ?_, hc, ?_, ?_⟩
      · rw [render_cons, hocc]
        simp only [List.append_assoc]
      · rw [List.length_append]
        omega
      · rw [List.length_append]
        omega

end DocTemplate
