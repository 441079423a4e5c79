import DocTemplate.Json.Printer
import DocTemplate.Json.Reader

/-!
# Texts of values

The texts that stand for a JSON value by the grammar of JSON: blanks may stand around every part, a
character of a string may be written as it is, by a short escape, by its code, or by a pair of
surrogates, and a number has no zero in front of another digit. Apart from which characters are
blanks and what an escape stands for, this shares nothing with how a value is written or read.
`Json.IsTextOf` is the grammar of a value, `Json.Denotes` that of a whole text.

What is written is in the grammar, on one line and with every indentation that consists of blanks
(`denotes_render`). The induction is along the value; the items of an array after the first one, and
likewise the fields of an object, are a case of their own, as they are in the printer.
-/

namespace DocTemplate.Json

/-! ## The grammar -/

/-- Nothing but blanks. -/
def Blank (t : Text) : Prop :=
  ∀ c ∈ t, isSpace c = true

/-- The text stands for a character inside a string. -/
inductive CharText : Char → Text → Prop
  | plain {c : Char} (hspace : 0x20 ≤ c.toNat) (hquote : c ≠ '"') (hback : c ≠ '\\') :
      CharText c [c]
  | short {c e : Char} (h : escaped e = some c) : CharText c ['\\', e]
  | unit {c a b d e : Char} (h : readUnit a b d e = some c.toNat) :
      CharText c ['\\', 'u', a, b, d, e]
  | pair {c a b d e a' b' d' e' : Char} {high low : Nat}
      (hhigh : readUnit a b d e = some high) (hlow : readUnit a' b' d' e' = some low)
      (hfirst : 0xd800 ≤ high ∧ high < 0xdc00) (hsecond : 0xdc00 ≤ low ∧ low < 0xe000)
      (hc : c.toNat = 0x10000 + (high - 0xd800) * 0x400 + (low - 0xdc00)) :
      CharText c ['\\', 'u', a, b, d, e, '\\', 'u', a', b', d', e']

/-- The text stands for some characters inside a string. -/
inductive CharsText : Text → Text → Prop
  | nil : CharsText [] []
  | cons {c : Char} {s t rest : Text} (hc : CharText c t) (hs : CharsText s rest) :
      CharsText (c :: s) (t ++ rest)

/-- The text stands for a string. -/
def StringText (s : String) (t : Text) : Prop :=
  ∃ inner, CharsText s.toList inner ∧ t = '"' :: (inner ++ ['"'])

/-- The text stands for an integer. Zero may have a sign. -/
def IntText (n : Int) (t : Text) : Prop :=
  (∃ k : Nat, n = k ∧ t = Nat.toDigits 10 k) ∨ ∃ k : Nat, n = -k ∧ t = '-' :: Nat.toDigits 10 k

mutual

/-- The text stands for the value, without blanks around it. -/
def IsTextOf : Json → Text → Prop
  | null, t => t = ['n', 'u', 'l', 'l']
  | bool true, t => t = ['t', 'r', 'u', 'e']
  | bool false, t => t = ['f', 'a', 'l', 's', 'e']
  | int n, t => IntText n t
  | str s, t => StringText s t
  | arr [], t => ∃ a, Blank a ∧ t = '[' :: (a ++ [']'])
  | arr (v :: rest), t => ∃ a w more b, Blank a ∧ v.IsTextOf w ∧ MoreItems rest more ∧ Blank b ∧
      t = '[' :: (a ++ (w ++ (more ++ (b ++ [']']))))
  | obj [], t => ∃ a, Blank a ∧ t = '\x7b' :: (a ++ ['\x7d'])
  | obj ((key, v) :: rest), t => ∃ a k b c w more d, Blank a ∧ StringText key k ∧ Blank b ∧
      Blank c ∧ v.IsTextOf w ∧ MoreFields rest more ∧ Blank d ∧
      t = '\x7b' :: (a ++ (k ++ (b ++ ':' :: (c ++ (w ++ (more ++ (d ++ ['\x7d'])))))))

/-- The text stands for the items of an array after its first one. -/
def MoreItems : List Json → Text → Prop
  | [], t => t = []
  | v :: rest, t => ∃ a b w more, Blank a ∧ Blank b ∧ v.IsTextOf w ∧ MoreItems rest more ∧
      t = a ++ ',' :: (b ++ (w ++ more))

/-- The text stands for the fields of an object after its first one. -/
def MoreFields : List (String × Json) → Text → Prop
  | [], t => t = []
  | (key, v) :: rest, t => ∃ a b k c d w more, Blank a ∧ Blank b ∧ StringText key k ∧ Blank c ∧
      Blank d ∧ v.IsTextOf w ∧ MoreFields rest more ∧
      t = a ++ ',' :: (b ++ (k ++ (c ++ ':' :: (d ++ (w ++ more)))))

end

/-- The text is a JSON text for the value. -/
def Denotes (t : Text) (j : Json) : Prop :=
  ∃ a w b, Blank a ∧ j.IsTextOf w ∧ Blank b ∧ t = a ++ (w ++ b)

/-! ## Strings that are written -/

theorem readUnit_hex {n : Nat} (h : n < 0x10000) :
    ∃ a b c d, Text.hex 4 n = [a, b, c, d] ∧ readUnit a b c d = some n := by
  refine ⟨_, _, _, _, rfl, ?_⟩
  have hdigit : ∀ m : Nat, Text.hexValue (Text.hexDigit (m % 16)) = some (m % 16) := fun m =>
    Text.hexValue_hexDigit (Nat.mod_lt m (by decide))
  simp only [readUnit, hdigit, Option.bind_eq_bind, Option.bind_some]
  exact congrArg some (by omega)

theorem charText_escapeChar (c : Char) : CharText c (escapeChar c) := by
  unfold escapeChar
  -- the seven characters that have a short escape
  iterate 7
    split
    · next h =>
      subst h
      exact .short rfl
  split
  · next hquote hback _ _ _ _ _ h => exact .plain h.1 hquote hback
  split
  · next hbasic =>
    obtain ⟨a, b, d, e, hhex, hunit⟩ := readUnit_hex hbasic
    rw [escapeUnit, hhex]
    exact .unit hunit
  · next hwide =>
    have hvalid : c.toNat < 0xd800 ∨ 0xdfff < c.toNat ∧ c.toNat < 0x110000 := c.valid
    obtain ⟨a, b, d, e, hhigh, hunit⟩ :=
      readUnit_hex (n := 0xd800 + (c.toNat - 0x10000) / 0x400) (by omega)
    obtain ⟨a', b', d', e', hlow, hunit'⟩ :=
      readUnit_hex (n := 0xdc00 + (c.toNat - 0x10000) % 0x400) (by omega)
    rw [escapeUnit, escapeUnit, hhigh, hlow]
    exact .pair hunit hunit' (by omega) (by omega) (by omega)

theorem charsText_flatMap (s : Text) : CharsText s (s.flatMap escapeChar) := by
  induction s with
  | nil => exact .nil
  | cons c rest ih => exact .cons (charText_escapeChar c) ih

theorem stringText_writeString (s : String) : StringText s (writeString s) :=
  ⟨_, charsText_flatMap s.toList, rfl⟩

theorem intText_ofInt (n : Int) : IntText n (Text.ofInt n) := by
  cases n with
  | ofNat k => exact .inl ⟨k, rfl, rfl⟩
  | negSucc k => exact .inr ⟨k + 1, rfl, rfl⟩

/-! ## Values that are written -/

/-- Lines, if any are used, are indented by blanks. -/
def BlankIndent (indent : Option Text) : Prop :=
  ∀ unit, indent = some unit → Blank unit

theorem blank_nil : Blank [] :=
  fun _ hc => absurd hc List.not_mem_nil

section Write

variable {indent : Option Text}

theorem blank_newline (h : BlankIndent indent) (depth : Nat) : Blank (newline indent depth) := by
  cases indent with
  | none => exact blank_nil
  | some unit =>
    refine List.forall_mem_cons.2 ⟨rfl, fun c hc => ?_⟩
    obtain ⟨part, hpart, hin⟩ := List.mem_flatten.1 hc
    rw [(List.mem_replicate.1 hpart).2] at hin
    exact h unit rfl c hin

theorem exists_between (h : BlankIndent indent) (depth : Nat) :
    ∃ b, Blank b ∧ between indent depth = ',' :: b := by
  cases indent with
  | none => exact ⟨[' '], List.forall_mem_singleton.2 rfl, rfl⟩
  | some unit => exact ⟨_, blank_newline h depth, rfl⟩

mutual

theorem isTextOf_write (h : BlankIndent indent) :
    ∀ (j : Json) (depth : Nat), j.IsTextOf (write indent depth j)
  | null, _ => rfl
  | bool true, _ => rfl
  | bool false, _ => rfl
  | int n, _ => intText_ofInt n
  | str s, _ => stringText_writeString s
  | arr [], _ => ⟨[], blank_nil, rfl⟩
  | arr (v :: rest), depth => by
    refine ⟨_, _, _, _, blank_newline h (depth + 1), isTextOf_write h v (depth + 1),
      moreItems_writeItems h rest (depth + 1), blank_newline h depth, ?_⟩
    simp only [write, List.append_assoc, List.cons_append, List.nil_append]
  | obj [], _ => ⟨[], blank_nil, rfl⟩
  | obj ((key, v) :: rest), depth => by
    refine ⟨_, _, [], [' '], _, _, _, blank_newline h (depth + 1), stringText_writeString key,
      blank_nil, List.forall_mem_singleton.2 rfl, isTextOf_write h v (depth + 1),
      moreFields_writeFields h rest (depth + 1), blank_newline h depth, ?_⟩
    simp only [write, List.append_assoc, List.cons_append, List.nil_append]

theorem moreItems_writeItems (h : BlankIndent indent) :
    ∀ (items : List Json) (depth : Nat), MoreItems items (writeItems indent depth items)
  | [], _ => rfl
  | v :: rest, depth => by
    obtain ⟨b, hb, hbetween⟩ := exists_between h depth
    refine ⟨[], b, _, _, blank_nil, hb, isTextOf_write h v depth,
      moreItems_writeItems h rest depth, ?_⟩
    simp only [writeItems, hbetween, List.append_assoc, List.cons_append, List.nil_append]

theorem moreFields_writeFields (h : BlankIndent indent) :
    ∀ (fields : List (String × Json)) (depth : Nat),
      MoreFields fields (writeFields indent depth fields)
  | [], _ => rfl
  | (key, v) :: rest, depth => by
    obtain ⟨b, hb, hbetween⟩ := exists_between h depth
    refine ⟨[], b, _, [], [' '], _, _, blank_nil, hb, stringText_writeString key, blank_nil,
      List.forall_mem_singleton.2 rfl, isTextOf_write h v depth,
      moreFields_writeFields h rest depth, ?_⟩
    simp only [writeFields, hbetween, List.append_assoc, List.cons_append, List.nil_append]

end

theorem denotes_renderWith (h : BlankIndent indent) (j : Json) :
    Denotes (j.renderWith indent).toList j := by
  refine ⟨[], _, [], blank_nil, isTextOf_write h j 0, blank_nil, ?_⟩
  rw [renderWith, String.toList_ofList, List.nil_append, List.append_nil]

end Write

/-- **What is written is a JSON text for the value**, on one line and with any number of spaces for
each level. -/
theorem denotes_render (indent : Option Nat) (j : Json) : Denotes (j.render indent).toList j := by
  refine denotes_renderWith (fun unit hunit c hc => ?_) j
  obtain ⟨n, -, rfl⟩ := Option.map_eq_some_iff.1 hunit
  obtain rfl := (List.mem_replicate.1 hc).2
  rfl

end DocTemplate.Json
