import DocTemplate.Proofs.Failure
import DocTemplate.Proofs.Json.Grammar

/-!
# Reading texts of values

Every text that stands for a value by the grammar is read as that value (`read?_of_denotes`), so no
text stands for two values (`Denotes.eq`).

A part of a text is read where it stands, with whatever follows it left over. What carries the
induction along the value is how much of the budget a part needs, which is at most twice its length,
and how many levels, which is at most its length (`Reads`). A number ends only where no digit
follows, so what follows a value may not start with one.
-/

namespace DocTemplate.Json

/-! ## Blanks -/

theorem skipSpace_append {a : Text} (h : Blank a) (t : Text) : skipSpace (a ++ t) = skipSpace t :=
  List.dropWhile_append_of_pos h

theorem skipSpace_cons {c : Char} (h : isSpace c = false) (t : Text) :
    skipSpace (c :: t) = c :: t := by
  rw [skipSpace, List.dropWhile_cons, if_neg (by rw [h]; exact Bool.false_ne_true)]

theorem skipSpace_append_cons {a : Text} (ha : Blank a) {c : Char} (hc : isSpace c = false)
    (t : Text) : skipSpace (a ++ c :: t) = c :: t := by
  rw [skipSpace_append ha, skipSpace_cons hc]

/-! ## Strings -/

/-- The codes that a character is read as: its own, or those of a pair of surrogates. -/
def IsCodesOf (c : Char) (codes : List Nat) : Prop :=
  codes = [c.toNat] ∨ ∃ high low, codes = [high, low] ∧ (0xd800 ≤ high ∧ high < 0xdc00) ∧
    (0xdc00 ≤ low ∧ low < 0xe000) ∧ c.toNat = 0x10000 + (high - 0xd800) * 0x400 + (low - 0xdc00)

variable {c : Char} {s t rest : Text} {codes more : List Nat}

theorem readCodes_charText (h : CharText c t) :
    ∃ codes, IsCodesOf c codes ∧ ∀ rest read after, readCodes rest = some (read, after) →
      readCodes (t ++ rest) = some (codes ++ read, after) := by
  cases h with
  | plain hspace hquote hback =>
    refine ⟨_, .inl rfl, fun rest read after hread => ?_⟩
    have hprintable : ¬ c.toNat < 0x20 := by omega
    rw [List.singleton_append, readCodes, if_neg hprintable, hread]
    · rfl
    · exact hquote
    · intro _ _ _ _ _ heq
      exact absurd heq hback
    · intro _ _ heq
      exact absurd heq hback
  | @short e he =>
    refine ⟨_, .inl rfl, fun rest read after hread => ?_⟩
    have hu : e ≠ 'u' := by
      rintro rfl
      exact absurd he (by simp [escaped])
    show readCodes ('\\' :: e :: rest) = _
    rw [readCodes, he, hread]
    · rfl
    · intro _ _ _ _ _ heq
      exact absurd heq hu
  | unit hunit =>
    refine ⟨_, .inl rfl, fun rest read after hread => ?_⟩
    simp only [List.cons_append, List.nil_append, readCodes, hunit, hread, Option.bind_eq_bind,
      Option.bind_some]
    rfl
  | pair hhigh hlow hfirst hsecond hc =>
    refine ⟨_, .inr ⟨_, _, rfl, hfirst, hsecond, hc⟩, fun rest read after hread => ?_⟩
    simp only [List.cons_append, List.nil_append, readCodes, hhigh, hlow, hread,
      Option.bind_eq_bind, Option.bind_some]
    rfl

theorem joinCodes_append (h : IsCodesOf c codes) (hmore : joinCodes more = some s) :
    joinCodes (codes ++ more) = some (c :: s) := by
  rcases h with rfl | ⟨high, low, rfl, hfirst, hsecond, hc⟩
  · have hvalid : c.toNat < 0xd800 ∨ 0xdfff < c.toNat ∧ c.toNat < 0x110000 := c.valid
    have hno : ¬ (0xd800 ≤ c.toNat ∧ c.toNat < 0xe000) := by omega
    have hnohigh : ∀ n, ¬ (0xd800 ≤ c.toNat ∧ c.toNat < 0xdc00 ∧ 0xdc00 ≤ n ∧ n < 0xe000) := by
      omega
    cases more with
    | nil =>
      obtain rfl := Option.some.inj hmore
      rw [List.append_nil, joinCodes, if_neg hno, Char.ofNat_toNat]
    | cons n rest =>
      rw [List.singleton_append, joinCodes, if_neg (hnohigh n), if_neg hno, hmore, Char.ofNat_toNat]
      rfl
  · have hpair : 0xd800 ≤ high ∧ high < 0xdc00 ∧ 0xdc00 ≤ low ∧ low < 0xe000 :=
      ⟨hfirst.1, hfirst.2, hsecond⟩
    rw [List.cons_append, List.singleton_append, joinCodes, if_pos hpair, hmore, ← hc,
      Char.ofNat_toNat]
    rfl

theorem readCodes_charsText (h : CharsText s t) :
    ∃ codes, joinCodes codes = some s ∧
      ∀ rest, readCodes (t ++ '"' :: rest) = some (codes, rest) := by
  induction h with
  | nil => exact ⟨[], rfl, fun rest => rfl⟩
  | cons hc _ ih =>
    obtain ⟨codes, hcodes, hread⟩ := readCodes_charText hc
    obtain ⟨more, hmore, hrest⟩ := ih
    refine ⟨codes ++ more, joinCodes_append hcodes hmore, fun rest => ?_⟩
    rw [List.append_assoc]
    exact hread _ _ _ (hrest rest)

/-- A string starts with a quote, and what follows the quote is read as the string. -/
theorem readString_stringText {s : String} (h : StringText s t) :
    ∃ inner, t = '"' :: inner ∧ ∀ rest, readString (inner ++ rest) = some (s, rest) := by
  obtain ⟨inner, hinner, rfl⟩ := h
  obtain ⟨codes, hcodes, hread⟩ := readCodes_charsText hinner
  refine ⟨_, rfl, fun rest => ?_⟩
  rw [List.append_assoc, List.singleton_append, readString, hread]
  simp only [Option.bind_eq_bind, Option.bind_some, hcodes, String.ofList_toList]
  rfl

/-! ## Integers -/

/-- The text does not start with a digit. -/
def EndsNumber (t : Text) : Prop :=
  ∀ c ∈ t.head?, c.isDigit = false

theorem digitsValue_toDigits (k : Nat) : digitsValue (Nat.toDigits 10 k) = k := by
  rw [digitsValue]
  refine Eq.trans ?_ (Nat.ofDigitChars_toDigits (b := 10) (n := k) (by decide) (by decide))
  rw [Nat.ofDigitChars]
  congr 1
  funext n c
  rw [Nat.mul_comm]
  rfl

/-- A numeral does not start with a zero, unless it is that of zero. -/
theorem exists_toDigits_eq {k : Nat} (h : 0 < k) :
    ∃ d rest, Nat.toDigits 10 k = d :: rest ∧ d ≠ '0' := by
  induction k using Nat.strongRecOn with
  | ind k ih =>
    have hdigit : ∀ k < 10, 0 < k → Nat.digitChar k ≠ '0' := by decide
    rcases Nat.lt_or_ge k 10 with hlt | hge
    · exact ⟨_, _, Nat.toDigits_of_lt_base hlt, hdigit k hlt h⟩
    · obtain ⟨d, rest, heq, hne⟩ := ih (k / 10) (by omega) (by omega)
      exact ⟨d, _, by rw [Nat.toDigits_of_base_le (by decide) hge, heq]; rfl, hne⟩

theorem isDigit_of_mem_toDigits {k : Nat} : ∀ c ∈ Nat.toDigits 10 k, c.isDigit = true :=
  fun _ hc => Nat.isDigit_of_mem_toDigits (by decide) (by decide) hc

theorem readNat_toDigits (k : Nat) (h : EndsNumber rest) :
    readNat (Nat.toDigits 10 k ++ rest) = some (k, rest) := by
  rcases Nat.eq_zero_or_pos k with rfl | hpos
  · rfl
  obtain ⟨d, ds, heq, hne⟩ := exists_toDigits_eq hpos
  have hnone : rest.takeWhile Char.isDigit = [] ∧ rest.dropWhile Char.isDigit = rest := by
    cases rest with
    | nil => exact ⟨rfl, rfl⟩
    | cons c rest =>
      have hc : ¬ c.isDigit = true := by rw [h c rfl]; exact Bool.false_ne_true
      exact ⟨List.takeWhile_cons_of_neg hc, List.dropWhile_cons_of_neg hc⟩
  have htake : (Nat.toDigits 10 k ++ rest).takeWhile Char.isDigit = d :: ds := by
    rw [List.takeWhile_append_of_pos isDigit_of_mem_toDigits, hnone.1, List.append_nil, heq]
  have hdrop : (Nat.toDigits 10 k ++ rest).dropWhile Char.isDigit = rest := by
    rw [List.dropWhile_append_of_pos isDigit_of_mem_toDigits, hnone.2]
  rw [readNat, htake, hdrop]
  · show some (digitsValue (d :: ds), rest) = _
    rw [← heq, digitsValue_toDigits]
  · intro t ht
    rw [heq, List.cons_append] at ht
    exact hne (List.cons.inj ht).1

/-- A numeral starts with a digit. -/
theorem exists_isDigit_toDigits (k : Nat) :
    ∃ d rest, Nat.toDigits 10 k = d :: rest ∧ d.isDigit = true := by
  obtain ⟨d, rest, heq⟩ := List.exists_cons_of_ne_nil (Nat.toDigits_ne_nil (n := k) (b := 10))
  exact ⟨d, rest, heq, isDigit_of_mem_toDigits d (heq ▸ List.mem_cons_self)⟩

theorem ne_of_isDigit {d : Char} (h : d.isDigit = true) (hc : c.isDigit = false) : d ≠ c :=
  fun heq => Bool.false_ne_true (hc.symm.trans (heq ▸ h))

theorem readInt_intText {n : Int} (h : IntText n t) (hrest : EndsNumber rest) :
    readInt (t ++ rest) = some (n, rest) := by
  rcases h with ⟨k, rfl, rfl⟩ | ⟨k, rfl, rfl⟩
  · obtain ⟨d, ds, heq, hd⟩ := exists_isDigit_toDigits k
    rw [readInt, readNat_toDigits k hrest]
    · rfl
    · intro t ht
      rw [heq, List.cons_append] at ht
      exact ne_of_isDigit hd rfl (List.cons.inj ht).1
  · rw [List.cons_append, readInt, readNat_toDigits k hrest]
    rfl

/-! ## How texts start -/

/-- The character can be the first one of the text of a value, behind blanks and in front of where
an array ends. -/
def StartsValue (c : Char) : Prop :=
  isSpace c = false ∧ c ≠ ']'

theorem startsValue_of_isDigit {d : Char} (h : d.isDigit = true) : StartsValue d := by
  refine ⟨?_, ne_of_isDigit h rfl⟩
  have hne : ∀ c : Char, c.isDigit = false → decide (d = c) = false := fun c hc =>
    decide_eq_false (ne_of_isDigit h hc)
  rw [isSpace, hne ' ' rfl, hne '\t' rfl, hne '\n' rfl, hne '\r' rfl]
  rfl

theorem IsTextOf.exists_cons {v : Json} {w : Text} (h : v.IsTextOf w) :
    ∃ c rest, w = c :: rest ∧ StartsValue c := by
  cases v with
  | null => exact ⟨_, _, h, rfl, by decide⟩
  | bool b => cases b <;> exact ⟨_, _, h, rfl, by decide⟩
  | int n =>
    rcases h with ⟨k, -, rfl⟩ | ⟨k, -, rfl⟩
    · obtain ⟨d, ds, heq, hd⟩ := exists_isDigit_toDigits k
      exact ⟨d, ds, heq, startsValue_of_isDigit hd⟩
    · exact ⟨_, _, rfl, rfl, by decide⟩
  | str s =>
    obtain ⟨inner, -, rfl⟩ := h
    exact ⟨_, _, rfl, rfl, by decide⟩
  | arr items =>
    cases items with
    | nil =>
      obtain ⟨a, -, rfl⟩ := h
      exact ⟨_, _, rfl, rfl, by decide⟩
    | cons v rest =>
      obtain ⟨a, w, more, b, -, -, -, -, rfl⟩ := h
      exact ⟨_, _, rfl, rfl, by decide⟩
  | obj fields =>
    cases fields with
    | nil =>
      obtain ⟨a, -, rfl⟩ := h
      exact ⟨_, _, rfl, rfl, by decide⟩
    | cons field rest =>
      obtain ⟨a, k, b, c, w, more, d, -, -, -, -, -, -, -, rfl⟩ := h
      exact ⟨_, _, rfl, rfl, by decide⟩

theorem IsTextOf.skipSpace_append {v : Json} {a w : Text} (ha : Blank a) (h : v.IsTextOf w)
    (rest : Text) : skipSpace (a ++ (w ++ rest)) = w ++ rest := by
  obtain ⟨c, w, rfl, hc, -⟩ := h.exists_cons
  exact skipSpace_append_cons ha hc _

/-! ## One step of reading -/

section Steps

variable {budget levels : Nat} {v : Json} {items : List Json} {fields : List (String × Json)}
  {key : String} {t' t'' : Text}

theorem readValue_arr_nil (h : skipSpace t = ']' :: rest) :
    readValue (budget + 1) (levels + 1) ('[' :: t) = .ok (.arr [], rest) := by
  rw [readValue, h]
  rfl

theorem readValue_arr (hne : ∀ rest, skipSpace t ≠ ']' :: rest)
    (h : readItems budget levels (skipSpace t) = .ok (items, rest)) :
    readValue (budget + 1) (levels + 1) ('[' :: t) = .ok (.arr items, rest) := by
  rw [readValue]
  split
  · next after heq => exact absurd heq (hne after)
  · rw [h]
    rfl

theorem readValue_obj_nil (h : skipSpace t = '\x7d' :: rest) :
    readValue (budget + 1) (levels + 1) ('\x7b' :: t) = .ok (.obj [], rest) := by
  rw [readValue, h]
  rfl

theorem readValue_obj (hne : ∀ rest, skipSpace t ≠ '\x7d' :: rest)
    (h : readFields budget levels (skipSpace t) = .ok (fields, rest)) :
    readValue (budget + 1) (levels + 1) ('\x7b' :: t) = .ok (.obj fields, rest) := by
  rw [readValue]
  split
  · next after heq => exact absurd heq (hne after)
  · rw [h]
    rfl

theorem readValue_str {s : String} (h : readString t = some (s, rest)) :
    readValue (budget + 1) levels ('"' :: t) = .ok (.str s, rest) := by
  rw [readValue, h]
  rfl

/-- What starts with a digit or a sign is read as an integer. -/
theorem readValue_int {n : Int} (hc : c = '-' ∨ c.isDigit = true)
    (h : readInt (c :: t) = some (n, rest)) :
    readValue (budget + 1) levels (c :: t) = .ok (.int n, rest) := by
  have hne : ∀ {d : Char} {t' : Text}, c :: t = d :: t' → d = '-' ∨ d.isDigit = true :=
    fun heq => (List.cons.inj heq).1 ▸ hc
  rw [readValue, h]
  · rfl
  all_goals
    intro _ heq
    exact absurd (hne heq) (by decide)

theorem readItems_last (hv : readValue budget levels t = .ok (v, t'))
    (h : skipSpace t' = ']' :: rest) :
    readItems (budget + 1) levels t = .ok ([v], rest) := by
  rw [readItems]
  refine bind_eq_ok_iff.2 ⟨_, hv, ?_⟩
  dsimp only
  rw [h]
  rfl

theorem readItems_cons (hv : readValue budget levels t = .ok (v, t'))
    (h : skipSpace t' = ',' :: t'')
    (hmore : readItems budget levels (skipSpace t'') = .ok (items, rest)) :
    readItems (budget + 1) levels t = .ok (v :: items, rest) := by
  rw [readItems]
  refine bind_eq_ok_iff.2 ⟨_, hv, ?_⟩
  dsimp only
  rw [h]
  exact bind_eq_ok_iff.2 ⟨_, hmore, rfl⟩

/-- A field stands at the start of the text, and its value is read with `after` left over. -/
def FieldRead (budget levels : Nat) (t : Text) (key : String) (v : Json) (after : Text) : Prop :=
  ∃ inner t' t'', t = '"' :: inner ∧ readString inner = some (key, t') ∧
    skipSpace t' = ':' :: t'' ∧ readValue budget levels (skipSpace t'') = .ok (v, after)

theorem readFields_last (hf : FieldRead budget levels t key v t')
    (h : skipSpace t' = '\x7d' :: rest) :
    readFields (budget + 1) levels t = .ok ([(key, v)], rest) := by
  obtain ⟨inner, t₁, t₂, rfl, hkey, hcolon, hv⟩ := hf
  rw [readFields, hkey]
  refine bind_eq_ok_iff.2 ⟨_, rfl, ?_⟩
  dsimp only
  rw [hcolon]
  refine bind_eq_ok_iff.2 ⟨_, hv, ?_⟩
  dsimp only
  rw [h]
  rfl

theorem readFields_cons (hf : FieldRead budget levels t key v t')
    (h : skipSpace t' = ',' :: t'')
    (hmore : readFields budget levels (skipSpace t'') = .ok (fields, rest)) :
    readFields (budget + 1) levels t = .ok ((key, v) :: fields, rest) := by
  obtain ⟨inner, t₁, t₂, rfl, hkey, hcolon, hv⟩ := hf
  rw [readFields, hkey]
  refine bind_eq_ok_iff.2 ⟨_, rfl, ?_⟩
  dsimp only
  rw [hcolon]
  refine bind_eq_ok_iff.2 ⟨_, hv, ?_⟩
  dsimp only
  rw [h]
  exact bind_eq_ok_iff.2 ⟨_, hmore, rfl⟩

end Steps

/-! ## Values -/

/-- Wherever the text stands and no digit follows, it is read as the value, given a budget of twice
its length and as many levels as it is long. -/
def Reads (v : Json) (w : Text) : Prop :=
  ∀ budget levels rest, 2 * w.length ≤ budget → w.length ≤ levels → EndsNumber rest →
    readValue budget levels (w ++ rest) = .ok (v, rest)

/-- A text that is not empty gives a budget and a level to start with. -/
theorem Reads.intro {v : Json} {w : Text} (hne : w ≠ [])
    (h : ∀ budget levels rest, 2 * w.length ≤ budget + 1 → w.length ≤ levels + 1 →
      EndsNumber rest → readValue (budget + 1) (levels + 1) (w ++ rest) = .ok (v, rest)) :
    Reads v w := by
  intro budget levels rest hbudget hlevels hrest
  have hpos := List.length_pos_iff.2 hne
  cases budget with
  | zero => omega
  | succ budget =>
    cases levels with
    | zero => omega
    | succ levels => exact h budget levels rest hbudget hlevels hrest

theorem isDigit_eq_false_of_isSpace (h : isSpace c = true) : c.isDigit = false := by
  cases hdigit : c.isDigit with
  | false => rfl
  | true => exact absurd ((startsValue_of_isDigit hdigit).1.symm.trans h) Bool.false_ne_true

theorem endsNumber_append_cons {a : Text} (ha : Blank a) (hc : c.isDigit = false) (t : Text) :
    EndsNumber (a ++ c :: t) := by
  intro d hd
  cases a with
  | nil => exact Option.some.inj hd ▸ hc
  | cons x a =>
    obtain rfl := Option.some.inj hd
    exact isDigit_eq_false_of_isSpace (ha x List.mem_cons_self)

theorem endsNumber_moreItems {items : List Json} {more : Text} (h : MoreItems items more)
    {b : Text} (hb : Blank b) (rest : Text) : EndsNumber (more ++ (b ++ ']' :: rest)) := by
  cases items with
  | nil =>
    obtain rfl := h
    exact endsNumber_append_cons hb rfl rest
  | cons v items =>
    obtain ⟨a, b', w, more, ha, -, -, -, rfl⟩ := h
    rw [List.append_assoc]
    exact endsNumber_append_cons ha rfl _

theorem endsNumber_moreFields {fields : List (String × Json)} {more : Text}
    (h : MoreFields fields more) {b : Text} (hb : Blank b) (rest : Text) :
    EndsNumber (more ++ (b ++ '\x7d' :: rest)) := by
  cases fields with
  | nil =>
    obtain rfl := h
    exact endsNumber_append_cons hb rfl rest
  | cons field fields =>
    obtain ⟨a, b', k, c, d, w, more, ha, -, -, -, -, -, -, rfl⟩ := h
    rw [List.append_assoc]
    exact endsNumber_append_cons ha rfl _

theorem StringText.skipSpace_append {s : String} {a k : Text} (ha : Blank a) (h : StringText s k)
    (rest : Text) : skipSpace (a ++ (k ++ rest)) = k ++ rest := by
  obtain ⟨inner, -, rfl⟩ := h
  exact skipSpace_append_cons ha rfl _

/-- The text of a field, with blanks around the colon. -/
theorem Reads.fieldRead {v : Json} {key : String} {k b c w rest : Text} (hk : StringText key k)
    (hb : Blank b) (hc : Blank c) (hw : v.IsTextOf w) (hread : Reads v w) (budget levels : Nat)
    (hbudget : 2 * w.length ≤ budget) (hlevels : w.length ≤ levels) (hrest : EndsNumber rest) :
    FieldRead budget levels (k ++ (b ++ ':' :: (c ++ (w ++ rest)))) key v rest := by
  obtain ⟨inner, rfl, hinner⟩ := readString_stringText hk
  refine ⟨_, _, _, rfl, hinner _, skipSpace_append_cons hb rfl _, ?_⟩
  rw [IsTextOf.skipSpace_append hc hw]
  exact hread budget levels rest hbudget hlevels hrest

mutual

theorem reads_of_isTextOf : ∀ {v : Json} {w : Text}, v.IsTextOf w → Reads v w
  | null, w, h => by
    obtain rfl := h
    exact .intro (by simp) fun _ _ _ _ _ _ => rfl
  | bool true, w, h => by
    obtain rfl := h
    exact .intro (by simp) fun _ _ _ _ _ _ => rfl
  | bool false, w, h => by
    obtain rfl := h
    exact .intro (by simp) fun _ _ _ _ _ _ => rfl
  | int n, w, h => by
    have hint : IntText n w := h
    have hstart : ∃ c w', w = c :: w' ∧ (c = '-' ∨ c.isDigit = true) := by
      rcases hint with ⟨k, -, rfl⟩ | ⟨k, -, rfl⟩
      · obtain ⟨d, ds, heq, hd⟩ := exists_isDigit_toDigits k
        exact ⟨d, ds, heq, .inr hd⟩
      · exact ⟨_, _, rfl, .inl rfl⟩
    obtain ⟨c, w', rfl, hc⟩ := hstart
    exact .intro (List.cons_ne_nil _ _) fun _ _ _ _ _ hrest =>
      readValue_int hc (readInt_intText hint hrest)
  | str s, w, h => by
    obtain ⟨inner, rfl, hinner⟩ := readString_stringText (show StringText s w from h)
    exact .intro (List.cons_ne_nil _ _) fun _ _ rest _ _ _ => readValue_str (hinner rest)
  | arr [], w, h => by
    obtain ⟨a, ha, rfl⟩ := h
    refine .intro (List.cons_ne_nil _ _) fun _ _ rest _ _ _ => readValue_arr_nil ?_
    show skipSpace ((a ++ [']']) ++ rest) = _
    rw [List.append_assoc]
    exact skipSpace_append_cons ha rfl rest
  | arr (v :: items), w, h => by
    obtain ⟨a, w, more, b, ha, hw, hmore, hb, rfl⟩ := h
    refine .intro (List.cons_ne_nil _ _) fun budget levels rest hbudget hlevels _ => ?_
    simp only [List.length_cons, List.length_append, List.length_nil] at hbudget hlevels
    simp only [List.cons_append, List.append_assoc, List.nil_append]
    have hskip := IsTextOf.skipSpace_append ha hw (more ++ (b ++ ']' :: rest))
    refine readValue_arr (fun after heq => ?_) ?_
    · obtain ⟨c, w', rfl, -, hc⟩ := hw.exists_cons
      exact hc (List.cons.inj (hskip.symm.trans heq)).1
    · rw [hskip]
      exact readItems_of_moreItems hmore (reads_of_isTextOf hw) hb (by omega) (by omega)
  | obj [], w, h => by
    obtain ⟨a, ha, rfl⟩ := h
    refine .intro (List.cons_ne_nil _ _) fun _ _ rest _ _ _ => readValue_obj_nil ?_
    show skipSpace ((a ++ ['\x7d']) ++ rest) = _
    rw [List.append_assoc]
    exact skipSpace_append_cons ha rfl rest
  | obj ((key, v) :: fields), w, h => by
    obtain ⟨a, k, b, c, w, more, d, ha, hk, hb, hc, hw, hmore, hd, rfl⟩ := h
    refine .intro (List.cons_ne_nil _ _) fun budget levels rest hbudget hlevels _ => ?_
    simp only [List.length_cons, List.length_append, List.length_nil] at hbudget hlevels
    simp only [List.cons_append, List.append_assoc, List.nil_append]
    have hskip := StringText.skipSpace_append ha hk
      (b ++ ':' :: (c ++ (w ++ (more ++ (d ++ '\x7d' :: rest)))))
    refine readValue_obj (fun after heq => ?_) ?_
    · obtain ⟨inner, -, rfl⟩ := hk
      exact absurd (List.cons.inj (hskip.symm.trans heq)).1 (by decide)
    · rw [hskip]
      exact readFields_of_moreFields hmore hk hb hc hw (reads_of_isTextOf hw) hd (by omega)
        (by omega)

theorem readItems_of_moreItems : ∀ {items : List Json} {more : Text}, MoreItems items more →
    ∀ {v : Json} {w b rest : Text} {budget levels : Nat}, Reads v w → Blank b →
      2 * (w.length + more.length + b.length) + 1 ≤ budget →
      w.length + more.length + b.length ≤ levels →
      readItems budget levels (w ++ (more ++ (b ++ ']' :: rest))) = .ok (v :: items, rest)
  | [], more, h, v, w, b, rest, budget + 1, levels, hv, hb, hbudget, hlevels => by
    have hend := endsNumber_moreItems h hb rest
    have hread := hv budget levels _ (by omega) (by omega) hend
    obtain rfl := h
    exact readItems_last hread (skipSpace_append_cons hb rfl rest)
  | u :: items, more, h, v, w, b, rest, budget + 1, levels, hv, hb, hbudget, hlevels => by
    have hend := endsNumber_moreItems h hb rest
    have hread := hv budget levels _ (by omega) (by omega) hend
    obtain ⟨a, b', w', more', ha, hb', hw', hmore', rfl⟩ := h
    simp only [List.length_append, List.length_cons] at hbudget hlevels
    simp only [List.append_assoc, List.cons_append] at hread ⊢
    refine readItems_cons hread (skipSpace_append_cons ha rfl _) ?_
    rw [IsTextOf.skipSpace_append hb' hw']
    exact readItems_of_moreItems hmore' (reads_of_isTextOf hw') hb (by omega) (by omega)

theorem readFields_of_moreFields : ∀ {fields : List (String × Json)} {more : Text},
    MoreFields fields more →
    ∀ {key : String} {v : Json} {k b c w d rest : Text} {budget levels : Nat}, StringText key k →
      Blank b → Blank c → v.IsTextOf w → Reads v w → Blank d →
      2 * (k.length + b.length + c.length + w.length + more.length + d.length + 1) + 1 ≤ budget →
      k.length + b.length + c.length + w.length + more.length + d.length + 1 ≤ levels →
      readFields budget levels
          (k ++ (b ++ ':' :: (c ++ (w ++ (more ++ (d ++ '\x7d' :: rest)))))) =
        .ok ((key, v) :: fields, rest)
  | [], more, h, key, v, k, b, c, w, d, rest, budget + 1, levels, hk, hb, hc, hw, hv, hd, hbudget,
      hlevels => by
    have hend := endsNumber_moreFields h hd rest
    have hread := hv.fieldRead hk hb hc hw budget levels (by omega) (by omega) hend
    obtain rfl := h
    exact readFields_last hread (skipSpace_append_cons hd rfl rest)
  | u :: fields, more, h, key, v, k, b, c, w, d, rest, budget + 1, levels, hk, hb, hc, hw, hv, hd,
      hbudget, hlevels => by
    have hend := endsNumber_moreFields h hd rest
    have hread := hv.fieldRead hk hb hc hw budget levels (by omega) (by omega) hend
    obtain ⟨a, b', k', c', d', w', more', ha, hb', hk', hc', hd', hw', hmore', rfl⟩ := h
    simp only [List.length_append, List.length_cons] at hbudget hlevels
    simp only [List.append_assoc, List.cons_append] at hread ⊢
    refine readFields_cons hread (skipSpace_append_cons ha rfl _) ?_
    rw [StringText.skipSpace_append hb' hk']
    exact readFields_of_moreFields hmore' hk' hc' hd' hw' (reads_of_isTextOf hw') hd (by omega)
      (by omega)

end

/-! ## Whole texts -/

theorem Blank.skipSpace_eq_nil {b : Text} (h : Blank b) : skipSpace b = [] := by
  rw [← List.append_nil b, skipSpace_append h]
  rfl

theorem Blank.endsNumber {b : Text} (h : Blank b) : EndsNumber b := by
  cases b with
  | nil => exact fun c hc => absurd hc (by simp)
  | cons c b =>
    exact endsNumber_append_cons blank_nil
      (isDigit_eq_false_of_isSpace (h c List.mem_cons_self)) b

/-- **Every JSON text for a value is read as that value.** -/
theorem read?_of_denotes {j : Json} (h : Denotes t j) : read? t = some j := by
  obtain ⟨a, w, b, ha, hw, hb, rfl⟩ := h
  have hread : readValue (2 * (a ++ (w ++ b)).length + 2) (a ++ (w ++ b)).length (w ++ b) =
      .ok (j, b) := by
    simp only [List.length_append]
    exact reads_of_isTextOf hw _ _ b (by omega) (by omega) hb.endsNumber
  rw [read?, readNested, IsTextOf.skipSpace_append ha hw, hread]
  show (if (skipSpace b).isEmpty = true then _ else _ : Except ReadError Json).toOption = _
  rw [hb.skipSpace_eq_nil]
  rfl

/-- A text is a JSON text for one value at most. -/
theorem Denotes.eq {j j' : Json} (h : Denotes t j) (h' : Denotes t j') : j = j' :=
  Option.some.inj ((read?_of_denotes h).symm.trans (read?_of_denotes h'))

end DocTemplate.Json
