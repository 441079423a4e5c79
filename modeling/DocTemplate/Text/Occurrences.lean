import DocTemplate.Text.Basic

/-!
# Occurrences

The offsets at which one text stands in another, leftmost first and without overlaps.

`occurrences` tries every offset. `offsetsOf` gives the same offsets (`offsetsOf_eq_occurrences`) in
one pass, however much of the text that is looked for stands at other places too: it carries along
a fingerprint of the stretch ahead that is as long as that text, and compares the two only where
their fingerprints agree.
-/

namespace DocTemplate.Text

/-- What `find` matches at the start of a text: itself, counted as `width` characters. -/
def occursAt (find : Text) (width : Nat) (t : Text) : Option (Unit × Nat) :=
  (stripStart find t).map fun _ => ((), width)

/-- The offsets at which `find` stands in a text whose first character has offset `offset`, each at
least `width` after the one before; `skip` is how much of the last one is still to come. -/
def occurrencesFrom (find : Text) (width skip offset : Nat) (t : Text) : List Nat :=
  (scanFrom (occursAt find width) skip offset t).map (·.start)

/-- The offsets in `t` at which `find` stands, leftmost first, each at least `width` after the one
before. -/
def occurrences (t find : Text) (width : Nat) : List Nat :=
  occurrencesFrom find width 0 0 t

/-! ## Fingerprints -/

/-- The weight of a character in a fingerprint, for every character behind it. -/
def printBase : UInt64 := 0x9e3779b97f4a7c15

/-- The weight of a character that has `n` characters behind it. -/
def printWeight : Nat → UInt64
  | 0 => 1
  | n + 1 => printWeight n * printBase

/-- A fingerprint with one more character behind it. -/
def extendPrint (print : UInt64) (c : Char) : UInt64 :=
  print * printBase + c.val.toUInt64

/-- The fingerprint of a text. -/
def fingerprint (t : Text) : UInt64 :=
  t.foldl extendPrint 0

theorem foldl_extendPrint (t : Text) (print : UInt64) :
    t.foldl extendPrint print = print * printWeight t.length + fingerprint t := by
  induction t generalizing print with
  | nil => simp [fingerprint, printWeight]
  | cons c rest ih =>
    rw [fingerprint, List.foldl_cons, List.foldl_cons, ih, ih (extendPrint 0 c)]
    simp only [extendPrint, List.length_cons, printWeight]
    grind

theorem fingerprint_cons (c : Char) (t : Text) :
    fingerprint (c :: t) = c.val.toUInt64 * printWeight t.length + fingerprint t := by
  rw [fingerprint, List.foldl_cons, foldl_extendPrint]
  simp only [extendPrint]
  grind

theorem fingerprint_concat (t : Text) (d : Char) :
    fingerprint (t ++ [d]) = extendPrint (fingerprint t) d := by
  simp [fingerprint, List.foldl_append]

/-- The fingerprint of the next stretch of a text: the one at hand with `d` added at its end and `c`
taken off its start. -/
theorem fingerprint_next {c d : Char} {rest ahead : Text} {n : Nat}
    (h : (c :: rest).drop n = d :: ahead) :
    extendPrint (fingerprint ((c :: rest).take n)) d - c.val.toUInt64 * printWeight n =
      fingerprint (rest.take n) := by
  have hn : n < (c :: rest).length := by
    rcases Nat.lt_or_ge n (c :: rest).length with hn | hn
    · exact hn
    · simp [List.drop_eq_nil_of_le hn] at h
  have hd : (c :: rest).take n ++ [d] = c :: rest.take n := by
    rw [← List.take_succ_cons, List.take_add_one, ← List.head?_drop, h]
    rfl
  have hl : (rest.take n).length = n := by
    simp only [List.length_cons] at hn
    simp only [List.length_take]
    omega
  rw [← fingerprint_concat, hd, fingerprint_cons, hl]
  grind

/-! ## Searching -/

/-- The occurrences of `find`, whose fingerprint is `print`, in a text whose first character has
offset `offset`. `here` is the fingerprint of the stretch of the text that is as long as `find`,
`ahead` is what follows that stretch, and `weight` is what a character weighs that leaves it. -/
def searchFrom (find : Text) (print weight : UInt64) (width skip offset : Nat) (here : UInt64)
    (ahead : Text) : Text → List Nat
  | [] => []
  | c :: rest =>
    let found := skip == 0 && here == print && (stripStart find (c :: rest)).isSome
    match ahead with
    | [] => if found then [offset] else []
    | d :: ahead =>
      let here := extendPrint here d - c.val.toUInt64 * weight
      if found then
        offset :: searchFrom find print weight width (width - 1) (offset + 1) here ahead rest
      else searchFrom find print weight width (skip - 1) (offset + 1) here ahead rest

/-- The offsets in `t` at which `find` stands, leftmost first, each at least `width` after the one
before. -/
def offsetsOf (t find : Text) (width : Nat) : List Nat :=
  let n := find.length
  searchFrom find (fingerprint find) (printWeight n) width 0 0 (fingerprint (t.take n)) (t.drop n) t

theorem occurrencesFrom_nil (find : Text) (width skip offset : Nat) :
    occurrencesFrom find width skip offset [] = [] := rfl

theorem occurrencesFrom_skip (find : Text) (width skip offset : Nat) (c : Char) (rest : Text) :
    occurrencesFrom find width (skip + 1) offset (c :: rest) =
      occurrencesFrom find width skip (offset + 1) rest := rfl

theorem occurrencesFrom_zero (find : Text) (width offset : Nat) (c : Char) (rest : Text) :
    occurrencesFrom find width 0 offset (c :: rest) =
      if (stripStart find (c :: rest)).isSome then
        offset :: occurrencesFrom find width (width - 1) (offset + 1) rest
      else occurrencesFrom find width 0 (offset + 1) rest := by
  rw [occurrencesFrom, scanFrom, occursAt]
  cases stripStart find (c :: rest) with
  | none => rfl
  | some _ => rfl

theorem le_of_mem_occurrencesFrom {find : Text} {width skip offset n : Nat} {t : Text}
    (h : n ∈ occurrencesFrom find width skip offset t) : offset ≤ n := by
  induction t generalizing skip offset with
  | nil => simp [occurrencesFrom_nil] at h
  | cons c rest ih =>
    cases skip with
    | succ skip =>
      rw [occurrencesFrom_skip] at h
      have := ih h
      omega
    | zero =>
      rw [occurrencesFrom_zero] at h
      split at h
      · rcases List.mem_cons.1 h with rfl | h
        · exact Nat.le_refl _
        · have := ih h
          omega
      · have := ih h
        omega

theorem length_le_of_stripStart {find t : Text} (h : (stripStart find t).isSome = true) :
    find.length ≤ t.length := by
  obtain ⟨r, hr⟩ := Option.isSome_iff_exists.1 h
  rw [eq_append_of_stripStart hr, List.length_append]
  omega

theorem take_of_stripStart {find t : Text} (h : (stripStart find t).isSome = true) :
    t.take find.length = find := by
  obtain ⟨r, hr⟩ := Option.isSome_iff_exists.1 h
  rw [eq_append_of_stripStart hr, List.take_left]

theorem occurrencesFrom_of_short {find t : Text} (h : t.length < find.length)
    (width skip offset : Nat) : occurrencesFrom find width skip offset t = [] := by
  induction t generalizing skip offset with
  | nil => rfl
  | cons c rest ih =>
    have hr : rest.length < find.length := by
      simp only [List.length_cons] at h
      omega
    cases skip with
    | succ skip => rw [occurrencesFrom_skip, ih hr]
    | zero =>
      rw [occurrencesFrom_zero, if_neg, ih hr]
      intro hs
      have := length_le_of_stripStart hs
      omega

theorem searchFrom_eq_occurrencesFrom (find : Text) (width skip offset : Nat) (t : Text) :
    searchFrom find (fingerprint find) (printWeight find.length) width skip offset
        (fingerprint (t.take find.length)) (t.drop find.length) t =
      occurrencesFrom find width skip offset t := by
  induction t generalizing skip offset with
  | nil => simp [searchFrom, occurrencesFrom_nil]
  | cons c rest ih =>
    have hprint : (fingerprint ((c :: rest).take find.length) == fingerprint find &&
        (stripStart find (c :: rest)).isSome) = (stripStart find (c :: rest)).isSome := by
      cases hs : (stripStart find (c :: rest)).isSome with
      | false => simp
      | true => simp [take_of_stripStart hs]
    cases ha : (c :: rest).drop find.length with
    | nil =>
      have hr : rest.length < find.length := by
        have := List.drop_eq_nil_iff.1 ha
        simp only [List.length_cons] at this
        omega
      simp only [searchFrom, Bool.and_assoc, hprint]
      cases skip with
      | succ skip => simp [occurrencesFrom_skip, occurrencesFrom_of_short hr]
      | zero => simp [occurrencesFrom_zero, occurrencesFrom_of_short hr]
    | cons d ahead =>
      have hrest : rest.drop find.length = ahead := by
        rw [← List.drop_succ_cons (a := c), List.drop_add_one_eq_tail_drop, ha, List.tail_cons]
      simp only [searchFrom, Bool.and_assoc, hprint, fingerprint_next ha, ← hrest, ih]
      cases skip with
      | succ skip => simp [occurrencesFrom_skip]
      | zero => simp [occurrencesFrom_zero]

theorem offsetsOf_eq_occurrences (t find : Text) (width : Nat) :
    offsetsOf t find width = occurrences t find width :=
  searchFrom_eq_occurrencesFrom find width 0 0 t

end DocTemplate.Text
