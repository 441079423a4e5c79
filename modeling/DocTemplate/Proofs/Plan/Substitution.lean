import DocTemplate.Proofs.Plan.Filling
import DocTemplate.Proofs.Plan.Variables
import Mathlib

/-!
# What a substitution plan does

A plan replaces the spellings of the variables one after another, and every replacement sees the
text that the ones before it left. In a text of placeholders this does the same as replacing every
variable at its place at once (`applyTextEdits_planSubstitution`).

The forms in which a variable is looked for are all spellings of its name
(`spells_of_mem_usualSpellings`), and no text spells two names (`Spells.splitContent_eq`). So the
first replacement that matches a placeholder is one for its own name, and it carries the value of
that name.
-/

namespace DocTemplate

/-! ## Spellings -/

/-- The ways in which the variable `name` can be written: with blanks around its name, and with any
declaration behind a colon that does not make a section marker of it. -/
inductive Spells (name : Text) : Text → Prop where
  | bare {a b : Text} (ha : ∀ x ∈ a, isBlank x = true) (hb : ∀ x ∈ b, isBlank x = true) :
    Spells name (a ++ name ++ b)
  | typed {a b declared : Text} (ha : ∀ x ∈ a, isBlank x = true) (hb : ∀ x ∈ b, isBlank x = true)
    (hd : ∀ x ∈ declared, isBrace x = false)
    (hmarker : ¬ HoldsMarker (a ++ name ++ b ++ ':' :: declared)) :
    Spells name (a ++ name ++ b ++ ':' :: declared)

/-- What a variable can be called so that a document can hold it: a trimmed text that is not empty
and holds neither a colon nor a brace. -/
structure IsName (name : Text) : Prop where
  ne_nil : name ≠ []
  trim_eq : name.trim = name
  colon_notMem : ':' ∉ name
  isBrace_eq : ∀ x ∈ name, isBrace x = false

section Spells

variable {name c : Text}

theorem isBrace_of_isBlank {x : Char} (h : isBlank x = true) : isBrace x = false := by
  rw [isBrace, Bool.or_eq_false_iff, beq_eq_false_iff_ne, beq_eq_false_iff_ne]
  constructor
  · rintro rfl
    exact absurd h (by decide)
  · rintro rfl
    exact absurd h (by decide)

theorem IsName.colon_notMem_append (hn : IsName name) {a b : Text}
    (ha : ∀ x ∈ a, isBlank x = true) (hb : ∀ x ∈ b, isBlank x = true) :
    ':' ∉ a ++ name ++ b := by
  simp only [List.mem_append, not_or]
  refine ⟨⟨fun h => ?_, hn.colon_notMem⟩, fun h => ?_⟩
  · exact absurd (ha _ h) (by decide)
  · exact absurd (hb _ h) (by decide)

theorem takeWhile_of_notMem {a : Text} (b : Text) (ha : ':' ∉ a) :
    (a ++ b).takeWhile (· ≠ ':') = a ++ b.takeWhile (· ≠ ':') := by
  refine List.takeWhile_append_of_pos fun x hx => decide_eq_true ?_
  rintro rfl
  exact ha hx

/-- A text spells the name that it is read as. -/
theorem Spells.splitContent_eq (hn : IsName name) (h : Spells name c) :
    (splitContent c).1 = name := by
  cases h with
  | @bare a b ha hb =>
    have htake := takeWhile_of_notMem [] hn.colon_notMem
    rw [List.append_nil, List.takeWhile_nil, List.append_nil] at htake
    simp only [splitContent, Text.trim_append_blanks ha hn.trim_eq hb hn.ne_nil, htake, hn.trim_eq]
  | @typed a b declared ha hb hd hmarker =>
    have hhead : ∀ x, (name ++ (b ++ [':'])).head? = some x → isBlank x = false := by
      intro x hx
      rw [List.head?_append_of_ne_nil _ hn.ne_nil, ← hn.trim_eq] at hx
      exact Text.isBlank_head?_trim hx
    have hlast : ∀ x, (name ++ (b ++ [':'])).getLast? = some x → isBlank x = false := by
      intro x hx
      rw [← List.append_assoc, List.getLast?_concat] at hx
      obtain rfl := Option.some.inj hx
      decide
    have htrim : (a ++ name ++ b ++ ':' :: declared).trim =
        name ++ b ++ ':' :: declared.rdropWhile isBlank := by
      have := Text.trim_append declared (by simp [hn.ne_nil]) hhead hlast
      rw [List.append_assoc, List.append_assoc, Text.trim_append_left _ ha]
      simpa using this
    have htake : (name ++ b ++ ':' :: declared.rdropWhile isBlank).takeWhile (· ≠ ':') =
        name ++ b := by
      rw [takeWhile_of_notMem]
      · simp
      · simpa using hn.colon_notMem_append (a := []) (by simp) hb
    have hname := Text.trim_append_blanks (a := []) (by simp) hn.trim_eq hb hn.ne_nil
    simp only [splitContent, htrim, htake]
    simpa using hname

/-- No section marker stands in a name and a declaration without brackets: its name would stand
behind a colon and end with a bracket. -/
theorem IsName.not_holdsMarker (hn : IsName name) {declared : Text} (hd : ']' ∉ declared) :
    ¬ HoldsMarker (name ++ ':' :: declared) := by
  rintro ⟨k, hk⟩
  obtain ⟨marked, q, -, hdrop⟩ := tag_sectionOpening_isSome_iff.1 hk
  -- what stands behind the colon of the opening stands behind the first colon
  have hsplit : name ++ ':' :: declared =
      ((name ++ ':' :: declared).take k ++ sectionOpening.dropLast) ++
        ':' :: (marked ++ [']', ']'] ++ q) := by
    conv_lhs => rw [← List.take_append_drop k (name ++ ':' :: declared), hdrop]
    simp [sectionOpening]
  rcases List.append_eq_append_iff.1 hsplit with ⟨r, -, hr⟩ | ⟨r, hr, hrest⟩
  · have : ']' ∈ ':' :: declared := by
      rw [hr]
      simp
    exact hd (by simpa using this)
  · cases r with
    | nil =>
      refine hd ?_
      rw [← (List.cons.inj hrest).2]
      simp
    | cons x r =>
      obtain ⟨rfl, -⟩ := List.cons.inj hrest
      exact hn.colon_notMem (by rw [hr]; simp)

theorem Spells.not_holdsMarker (hn : IsName name) (h : Spells name c) : ¬ HoldsMarker c := by
  cases h with
  | bare ha hb =>
    rintro ⟨k, hk⟩
    obtain ⟨marked, q, -, hdrop⟩ := tag_sectionOpening_isSome_iff.1 hk
    refine hn.colon_notMem_append ha hb (List.mem_of_mem_drop (i := k) ?_)
    rw [hdrop]
    simp [sectionOpening]
  | typed ha hb hd hmarker => exact hmarker

theorem Spells.isContent (hn : IsName name) (h : Spells name c) : IsContent c := by
  have hblank : ∀ {a : Text}, (∀ x ∈ a, isBlank x = true) → ∀ x ∈ a, isBrace x = false :=
    fun ha x hx => isBrace_of_isBlank (ha x hx)
  cases h with
  | bare ha hb =>
    refine ⟨by simp [hn.ne_nil], fun x hx => ?_⟩
    simp only [List.mem_append] at hx
    rcases hx with (hx | hx) | hx
    · exact hblank ha x hx
    · exact hn.isBrace_eq x hx
    · exact hblank hb x hx
  | typed ha hb hd hmarker =>
    refine ⟨by simp, fun x hx => ?_⟩
    simp only [List.mem_append, List.mem_cons] at hx
    rcases hx with ((hx | hx) | hx) | rfl | hx
    · exact hblank ha x hx
    · exact hn.isBrace_eq x hx
    · exact hblank hb x hx
    · rfl
    · exact hd x hx

theorem spells_of_mem_usualSpellings (hn : IsName name) {s : Text}
    (h : s ∈ usualSpellings name) : ∃ c, s = braced c ∧ Spells name c := by
  simp only [usualSpellings, List.mem_append, List.mem_cons, List.not_mem_nil, or_false,
    List.mem_map] at h
  rcases h with (rfl | rfl) | ⟨type, -, rfl⟩
  · have hbare := @Spells.bare name [] [] (by simp) (by simp)
    exact ⟨name, rfl, by simpa using hbare⟩
  · exact ⟨_, rfl, .bare (by simp [isBlank]) (by simp [isBlank])⟩
  · have hbraces : (type.name.all fun x => !isBrace x) = true := by cases type <;> decide
    have hbracket : ']' ∉ type.name := by cases type <;> decide
    have htyped := @Spells.typed name [] [] type.name (by simp) (by simp) (by simpa using hbraces)
      (by simpa using hn.not_holdsMarker hbracket)
    exact ⟨_, rfl, by simpa using htyped⟩

end Spells

/-! ## Values -/

namespace OrderedMap

variable {α : Type} {m m' : OrderedMap α} {key : Text} {value : α}

theorem get?_eq_some_iff : m.get? key = some value ↔ (key, value) ∈ m.entries := by
  obtain ⟨entries, nodup⟩ := m
  show entries.lookup key = some value ↔ (key, value) ∈ entries
  induction entries with
  | nil => simp
  | cons e rest ih =>
    obtain ⟨k, v⟩ := e
    obtain ⟨hfresh, hrest⟩ := List.nodup_cons.1 nodup
    rw [List.lookup_cons, List.mem_cons]
    by_cases hk : key = k
    · subst hk
      have hnot : (key, value) ∉ rest := fun h => hfresh (List.mem_map.2 ⟨_, h, rfl⟩)
      simp [hnot, eq_comm]
    · simp [beq_false_of_ne hk, hk, ih hrest]

theorem get?_of_perm (h : m'.entries.Perm m.entries) (key : Text) : m'.get? key = m.get? key := by
  refine Option.ext fun value => ?_
  rw [get?_eq_some_iff, get?_eq_some_iff, h.mem_iff]

end OrderedMap

/-- The text that a value puts in the place of a variable. Only a text puts anything there. -/
def Entry.replacement : Entry → Text
  | .text t => t
  | .data _ => []

/-- Values that can be filled in one after another: a document can hold their names, and each is
null or a text without braces. -/
structure PlainValues (values : OrderedMap Entry) : Prop where
  isName : ∀ name ∈ values.keys, IsName name
  plain : ∀ e ∈ values.entries, e.2 = .data .null ∨ ∃ t, e.2 = .text t
  isBrace_eq : ∀ e ∈ values.entries, ∀ x ∈ e.2.replacement, isBrace x = false

/-- The parts of a text that values take the place of: the variables whose names have a value. -/
def valueParts (values : OrderedMap Entry) (t : Text) : List (Replacement Char) :=
  ((tokenize t).filterMap Token.var?).filterMap fun v =>
    (values.get? v.name).map fun e => ⟨v.start, v.stop, e.replacement⟩

/-- A text with every variable that has a value replaced by it, all at once. -/
def substituted (values : OrderedMap Entry) (t : Text) : Text :=
  splice t (valueParts values t)

/-! ## The plan -/

/-- The forms in which the variable `name` is looked for in a text. -/
def spellingsIn (t name : Text) : List Text :=
  placeholderSpellings name
    ((((tokenize t).filterMap Token.var?).filter (·.name = name)).map (·.placeholder))

/-- The replacements that fill the variables of a text: what is looked for, and what takes its
place. -/
def valueReplacements (values : OrderedMap Entry) (t : Text) : List (Text × Text) :=
  values.entries.flatMap fun (name, value) => (spellingsIn t name).map (·, value.replacement)

section Plan

variable {values : OrderedMap Entry} {t : Text}

theorem mem_spellingsIn {s name : Text} :
    s ∈ spellingsIn t name ↔
      s ∈ usualSpellings name ∨ ∃ v ∈ textVariables t, v.name = name ∧ v.placeholder = s := by
  rw [spellingsIn, placeholderSpellings, List.mem_append, mem_distinctFrom]
  have hfound : s ∈ (((tokenize t).filterMap Token.var?).filter (·.name = name)).map
      (·.placeholder) ↔ ∃ v ∈ textVariables t, v.name = name ∧ v.placeholder = s := by
    simp only [List.mem_map, List.mem_filter, mem_variableTokens, decide_eq_true_eq, and_assoc]
  rw [hfound]
  by_cases hs : s ∈ usualSpellings name <;> simp [hs]

/-- What is looked for is a placeholder that names the variable and holds no section marker. -/
theorem eq_braced_of_mem_spellingsIn (ht : Substitutable t) {s name : Text} (hn : IsName name)
    (h : s ∈ spellingsIn t name) :
    ∃ c, s = braced c ∧ '\x7d' ∉ c ∧ (splitContent c).1 = name ∧ ¬ HoldsMarker c := by
  rcases mem_spellingsIn.1 h with h | ⟨v, hv, rfl, rfl⟩
  · obtain ⟨c, rfl, hc⟩ := spells_of_mem_usualSpellings hn h
    exact ⟨c, rfl, (hc.isContent hn).close_notMem, hc.splitContent_eq hn, hc.not_holdsMarker hn⟩
  · obtain ⟨p, c, q, -, hc, hmarker, -, rfl⟩ := (mem_textVariables ht).1 hv
    exact ⟨c, rfl, hc.1, rfl, hmarker⟩

theorem mem_valueReplacements {s new : Text} :
    (s, new) ∈ valueReplacements values t ↔
      ∃ e ∈ values.entries, s ∈ spellingsIn t e.1 ∧ e.2.replacement = new := by
  simp only [valueReplacements, List.mem_flatMap, List.mem_map, Prod.mk.injEq]
  constructor
  · rintro ⟨e, he, s', hs, rfl, hnew⟩
    exact ⟨e, he, hs, hnew⟩
  · rintro ⟨e, he, hs, hnew⟩
    exact ⟨e, he, s, hs, rfl, hnew⟩

theorem eq_replacement_of_mem (ht : Substitutable t) (hv : PlainValues values) {c new : Text}
    (h : (braced c, new) ∈ valueReplacements values t) :
    ¬ HoldsMarker c ∧ ∃ e, values.get? (splitContent c).1 = some e ∧ e.replacement = new := by
  obtain ⟨⟨name, e⟩, he, hs, hnew⟩ := mem_valueReplacements.1 h
  obtain ⟨d, hd, -, hname, hmarker⟩ := eq_braced_of_mem_spellingsIn ht
    (hv.isName name (List.mem_map.2 ⟨_, he, rfl⟩)) hs
  obtain rfl := braced_injective hd
  exact ⟨hmarker, e, by rw [hname, OrderedMap.get?_eq_some_iff]; exact he, hnew⟩

/-- The first replacement that is made for a placeholder of the text puts the value of its name
there, and there is one unless the placeholder holds a section marker. -/
theorem lookup_valueReplacements (ht : Substitutable t) (hv : PlainValues values)
    {p c q new : Text} (hocc : t = p ++ (braced c ++ q)) (hc : '\x7d' ∉ c ∧ c ≠ []) :
    (valueReplacements values t).lookup (braced c) = some new ↔
      ¬ HoldsMarker c ∧ ∃ e, values.get? (splitContent c).1 = some e ∧ e.replacement = new := by
  have hmem : ∀ {new'}, (valueReplacements values t).lookup (braced c) = some new' →
      ¬ HoldsMarker c ∧ ∃ e, values.get? (splitContent c).1 = some e ∧ e.replacement = new' := by
    intro new' h
    obtain ⟨as, bs, heq, -⟩ := List.lookup_eq_some_iff.1 h
    exact eq_replacement_of_mem ht hv (heq ▸ List.mem_append_right as List.mem_cons_self)
  refine ⟨hmem, ?_⟩
  rintro ⟨hmarker, e, hget, rfl⟩
  have he := OrderedMap.get?_eq_some_iff.1 hget
  have hname := hv.isName _ (List.mem_map.2 ⟨_, he, rfl⟩)
  have hvar := (mem_textVariables ht).2 ⟨p, c, q, hocc, hc, hmarker, hname.ne_nil, rfl⟩
  have hfirst : ((valueReplacements values t).lookup (braced c)).isSome = true := by
    refine List.lookup_isSome_iff.2 ⟨(braced c, e.replacement), ?_, beq_self_eq_true _⟩
    exact mem_valueReplacements.2 ⟨_, he, mem_spellingsIn.2 (.inr ⟨_, hvar, rfl, rfl⟩), rfl⟩
  obtain ⟨new', hnew⟩ := Option.isSome_iff_exists.1 hfirst
  obtain ⟨-, e', hget', rfl⟩ := hmem hnew
  obtain rfl := Option.some.inj (hget.symm.trans hget')
  exact hnew

theorem planValues_eq_of_plain
    (hv : ∀ e ∈ values.entries, e.2 = .data .null ∨ ∃ t, e.2 = .text t) (linear : LinearText) :
    planValues values (.ofLinear linear) =
      (valueReplacements values linear.text).map replacingEdit := by
  rw [valueReplacements, List.map_flatMap, planValues]
  refine List.flatMap_congr fun e he => ?_
  have hvalue : e.2.orEmpty = .text e.2.replacement := by
    rcases hv e he with h | ⟨new, h⟩
    · rw [h]
      rfl
    · rw [h, Entry.orEmpty, Entry.isGiven]
      cases new <;> rfl
  show variableEdits _ e.1 e.2 = _
  rw [variableEdits, hvalue, List.map_map]
  rfl

theorem planValues_eq (hv : PlainValues values) (linear : LinearText) :
    planValues values (.ofLinear linear) =
      (valueReplacements values linear.text).map replacingEdit :=
  planValues_eq_of_plain hv.plain linear

/-! ## All at once -/

theorem mem_valueParts {r : Replacement Char} :
    r ∈ valueParts values t ↔ ∃ v ∈ textVariables t, ∃ e, values.get? v.name = some e ∧
      (⟨v.start, v.stop, e.replacement⟩ : Replacement Char) = r := by
  rw [valueParts, List.mem_filterMap]
  simp only [mem_variableTokens, Option.map_eq_some_iff]

theorem pairwise_valueParts (values : OrderedMap Entry) (t : Text) :
    (valueParts values t).Pairwise fun a b => a.start < b.start := by
  refine List.pairwise_filterMap.2 (List.pairwise_filterMap.2 ?_)
  refine (pairwise_tokenize t).imp_of_mem fun {a b} ha _ hab v hv w hw r hr s hs => ?_
  have hlt := (standsIn_of_mem_tokenize ha).start_lt_stop
  cases a with
  | var a =>
    cases b with
    | var b =>
      obtain rfl := Option.some.inj hv
      obtain rfl := Option.some.inj hw
      obtain ⟨e, -, rfl⟩ := Option.map_eq_some_iff.1 hr
      obtain ⟨e', -, rfl⟩ := Option.map_eq_some_iff.1 hs
      exact Nat.lt_of_lt_of_le hlt hab
    | _ => simp [Token.var?] at hw
  | _ => simp [Token.var?] at hv

/-- The parts that values take the place of are the holes for which there is a replacement. -/
theorem valueParts_eq_filledParts {ps : List Piece} (hps : ∀ x ∈ ps, x.Proper)
    (ht : Substitutable (render ps)) (hv : PlainValues values) :
    valueParts values (render ps) =
      filledParts (fun c => (valueReplacements values (render ps)).lookup (braced c)) 0 ps := by
  have : Std.Antisymm fun a b : Replacement Char => a.start < b.start :=
    ⟨fun a b hab hba => absurd hab (Nat.lt_asymm hba)⟩
  have : Std.Irrefl fun a b : Replacement Char => a.start < b.start :=
    ⟨fun a => Nat.lt_irrefl a.start⟩
  refine (pairwise_valueParts values _).eq_of_mem_iff (pairwise_filledParts _ 0 ps) fun r => ?_
  rw [mem_valueParts, mem_filledParts]
  constructor
  · rintro ⟨v, hvar, e, hget, rfl⟩
    obtain ⟨p, c, q, hocc, hc, hmarker, -, rfl⟩ := (mem_textVariables ht).1 hvar
    obtain ⟨as, bs, hsplit, rfl, -⟩ := exists_hole_of_render_eq hps hc.1 hocc
    refine ⟨as, c, bs, e.replacement, hsplit, ?_, by rw [Nat.zero_add]; rfl⟩
    exact (lookup_valueReplacements ht hv hocc hc).2 ⟨hmarker, e, hget, rfl⟩
  · rintro ⟨as, c, bs, new, hsplit, hlookup, rfl⟩
    have hproper : IsContent c := hps (.hole c) (by simp [hsplit])
    have hc : '\x7d' ∉ c ∧ c ≠ [] := ⟨hproper.close_notMem, hproper.ne_nil⟩
    have hocc : render ps = render as ++ (braced c ++ render bs) := by
      rw [hsplit, render_append, render_cons]
      rfl
    obtain ⟨hmarker, e, hget, rfl⟩ := (lookup_valueReplacements ht hv hocc hc).1 hlookup
    have hname := hv.isName _ (List.mem_map.2 ⟨_, OrderedMap.get?_eq_some_iff.1 hget, rfl⟩)
    refine ⟨variableAt (render as).length c, ?_, e, hget, by rw [Nat.zero_add]; rfl⟩
    exact (mem_textVariables ht).2 ⟨_, c, _, hocc, hc, hmarker, hname.ne_nil, rfl⟩

/-- Filling the variables of a text one after another gives the text with all of them replaced, and
the placeholders left in it are those that were no variable with a value. -/
theorem applyTextEdits_valueReplacements (ht : Substitutable t) (hv : PlainValues values) :
    applyTextEdits t ((valueReplacements values t).map replacingEdit) =
        .ok (substituted values t) ∧
      ∀ c, '\x7d' ∉ c → (braced c <:+: substituted values t ↔
        braced c <:+: t ∧ (valueReplacements values t).lookup (braced c) = none) := by
  obtain ⟨ps, hps, rfl⟩ := exists_render ht.placeholdersOnly
  have hsplice : substituted values (render ps) = render (ps.flatMap
      (Piece.fill fun c => (valueReplacements values (render ps)).lookup (braced c))) := by
    rw [substituted, splice, valueParts_eq_filledParts hps ht hv, spliceFrom_render]
  have hnew : ∀ r ∈ valueReplacements values (render ps), ∀ x ∈ r.2, isBrace x = false := by
    rintro ⟨s, new⟩ hr
    obtain ⟨e, he, -, rfl⟩ := mem_valueReplacements.1 hr
    exact hv.isBrace_eq e he
  rw [hsplice]
  constructor
  · refine applyTextEdits_render hps fun r hr => ⟨?_, hnew r hr⟩
    obtain ⟨s, new⟩ := r
    obtain ⟨e, he, hs, -⟩ := mem_valueReplacements.1 hr
    obtain ⟨c, rfl, hc, -⟩ :=
      eq_braced_of_mem_spellingsIn ht (hv.isName _ (List.mem_map.2 ⟨_, he, rfl⟩)) hs
    exact ⟨c, hc, rfl⟩
  · intro c hc
    have hfilled : ∀ x ∈ ps.flatMap (Piece.fill fun c =>
        (valueReplacements values (render ps)).lookup (braced c)), x.Proper := by
      refine proper_of_mem_fill hps fun d new hlookup => ?_
      obtain ⟨as, bs, heq, -⟩ := List.lookup_eq_some_iff.1 hlookup
      exact hnew _ (heq ▸ List.mem_append_right as List.mem_cons_self)
    rw [braced_infix_render hfilled hc, hole_mem_fill, braced_infix_render hps hc]

end Plan

/-- **A substitution plan fills every variable at its place**: carried out on a text of
placeholders, it replaces each variable that has a value by that value and changes nothing else,
in whatever order the values were entered. No spelling of a name that has a value is left, and the
placeholders of other names are those that were there. -/
theorem applyTextEdits_planSubstitution {linear : LinearText} {values : OrderedMap Entry}
    (ht : Substitutable linear.text) (hv : PlainValues values) (minPadding : Json) :
    (∀ values' : OrderedMap Entry, values'.entries.Perm values.entries →
      ∃ edits, planSubstitution values' [] (.ofLinear linear) minPadding = .ok edits ∧
        applyTextEdits linear.text edits = .ok (substituted values linear.text)) ∧
    (∀ name ∈ values.keys, ∀ c, Spells name c →
      ¬ braced c <:+: substituted values linear.text) ∧
    ∀ c, IsContent c → (splitContent c).1 ∉ values.keys →
      (braced c <:+: substituted values linear.text ↔ braced c <:+: linear.text) := by
  obtain ⟨-, hleft⟩ := applyTextEdits_valueReplacements ht hv
  refine ⟨fun values' hperm => ?_, fun name hname c hc hin => ?_, fun c hc hname => ?_⟩
  · have hv' : PlainValues values' := {
      isName := fun name hname => hv.isName name ((hperm.map Prod.fst).mem_iff.1 hname)
      plain := fun e he => hv.plain e (hperm.mem_iff.1 he)
      isBrace_eq := fun e he => hv.isBrace_eq e (hperm.mem_iff.1 he) }
    have hsame : substituted values' linear.text = substituted values linear.text := by
      rw [substituted, substituted, valueParts, valueParts]
      simp only [OrderedMap.get?_of_perm hperm]
    refine ⟨_, rfl, ?_⟩
    rw [List.nil_append, planValues_eq hv', ← hsame]
    exact (applyTextEdits_valueReplacements ht hv').1
  · have hn := hv.isName name hname
    have hcontent := hc.isContent hn
    obtain ⟨⟨p, q, hocc⟩, hnone⟩ := (hleft c hcontent.close_notMem).1 hin
    rw [List.append_assoc] at hocc
    obtain ⟨⟨k, e⟩, he, rfl⟩ := List.mem_map.1 hname
    have hsome := (lookup_valueReplacements ht hv hocc.symm
      ⟨hcontent.close_notMem, hcontent.ne_nil⟩).2 ⟨hc.not_holdsMarker hn, e, by
        rw [hc.splitContent_eq hn, OrderedMap.get?_eq_some_iff]
        exact he, rfl⟩
    rw [hnone] at hsome
    exact absurd hsome (by simp)
  · rw [hleft c hc.close_notMem, and_iff_left_iff_imp]
    rintro -
    refine Option.eq_none_iff_forall_ne_some.2 fun new hlookup => hname ?_
    obtain ⟨as, bs, heq, -⟩ := List.lookup_eq_some_iff.1 hlookup
    obtain ⟨-, e, hget, -⟩ := eq_replacement_of_mem ht hv
      (heq ▸ List.mem_append_right as List.mem_cons_self)
    exact List.mem_map.2 ⟨_, OrderedMap.get?_eq_some_iff.1 hget, rfl⟩

/-- A letter with a variable in a loose spelling, another one whose name differs in case only, and a
section marker. -/
def letterPieces : List Piece :=
  [.plain 'A', .hole [' ', 'n', ':', 'T', 'E', 'X', 'T', ' '], .hole ['N']] ++
    (sectionOpening ++ ['S', ']', ']']).map .plain

/-- A value for the first variable of the letter. -/
def letterValues : OrderedMap Entry :=
  ⟨[(['n'], .text ['B', 'o'])], by decide⟩

theorem substitutable_letter : Substitutable (render letterPieces) := by
  have hproper : ∀ x ∈ letterPieces, x.Proper := by decide
  refine ⟨placeholdersOnly_render hproper, fun p c q h hc => ?_, fun m hm x hx => ?_⟩
  · have hmem := (braced_infix_render hproper hc.close_notMem).1
      ⟨p, q, by rw [h, List.append_assoc]⟩
    have hcases : c = [' ', 'n', ':', 'T', 'E', 'X', 'T', ' '] ∨ c = ['N'] := by
      simpa [letterPieces] using hmem
    rcases hcases with rfl | rfl
    · decide
    · decide
  · have hall : ((tokenize (render letterPieces)).all fun k =>
        k.sectionMarker?.all fun m => m.raw.all fun x => !isBrace x) = true := by cbv
    have hraw := List.all_eq_true.1 hall _ hm
    simpa using List.all_eq_true.1 hraw x hx

theorem plainValues_letter : PlainValues letterValues := by
  refine ⟨fun name hname => ?_, fun e he => ?_, fun e he => ?_⟩
  · obtain rfl : name = ['n'] := by simpa [letterValues, OrderedMap.keys] using hname
    exact ⟨by decide, by decide, by decide, by simp [isBrace]⟩
  · obtain rfl : e = (['n'], .text ['B', 'o']) := by simpa [letterValues] using he
    exact .inr ⟨_, rfl⟩
  · obtain rfl : e = (['n'], .text ['B', 'o']) := by simpa [letterValues] using he
    simp [Entry.replacement, isBrace]

theorem applyTextEdits_letter :
    Substitutable (render letterPieces) ∧ PlainValues letterValues ∧
      substituted letterValues (render letterPieces) =
        ['A', 'B', 'o'] ++ braced ['N'] ++ sectionOpening ++ ['S', ']', ']'] ∧
      ∃ edits, planSubstitution letterValues [] (.ofLinear ⟨render letterPieces, [], .null⟩) .null =
          .ok edits ∧
        applyTextEdits (render letterPieces) edits =
          .ok (substituted letterValues (render letterPieces)) :=
  ⟨substitutable_letter, plainValues_letter, by cbv,
    (@applyTextEdits_planSubstitution ⟨render letterPieces, [], .null⟩ letterValues
      substitutable_letter plainValues_letter .null).1 letterValues (List.Perm.refl _)⟩

end DocTemplate
