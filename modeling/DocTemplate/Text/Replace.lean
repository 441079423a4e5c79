import DocTemplate.Text.Lowercase
import DocTemplate.Text.Occurrences

/-!
# Replacing every occurrence

Replacing a text literally, and replacing it regardless of case. Both take the leftmost
occurrences that do not overlap, and both need a text to look for that is not empty.

The occurrences are looked for first and the text is put together from the stretches between them.
This is the same as replacing along the text (`replaceAll_eq_replaceFrom`). Regardless of case, the
occurrences are looked for in the lower-case form of the whole text, and their offsets there are
used in the text as it is. The two forms have the same length unless a dotted capital I stands in
the text.
-/

namespace DocTemplate.Text

/-- A text that starts at offset `cursor`, with the `width` characters at each of the offsets
replaced by `new`. -/
def spliceAt (new : Text) (width : Nat) (t : Text) (cursor : Nat) : List Nat → Text
  | [] => t
  | offset :: rest =>
    let gap := offset - cursor
    t.take gap ++ new ++ spliceAt new width (t.drop (gap + width)) (offset + width) rest

/-- `t` with every occurrence of `find` replaced by `new`. -/
def replaceAll (t find new : Text) : Text :=
  spliceAt new find.length t 0 (offsetsOf t find find.length)

/-- `t` with every occurrence of `find` in any case replaced by `new`. -/
def replaceAnyCase (t find new : Text) : Text :=
  spliceAt new find.length t 0 (offsetsOf t.lower find.lower find.length)

example : replaceAll ['a', 'a', 'a', 'a', 'a'] ['a', 'a'] ['a', 'a', 'a'] =
    ['a', 'a', 'a', 'a', 'a', 'a', 'a'] := by decide +kernel

/-! ## Replacing along the text -/

/-- Replaces the leftmost occurrences of `find`; `skip` is how much of the last one is still to
come. -/
def replaceFrom (find new : Text) (skip : Nat) : Text → Text
  | [] => []
  | c :: rest =>
    match skip with
    | skip + 1 => replaceFrom find new skip rest
    | 0 =>
      match stripStart find (c :: rest) with
      | some _ => new ++ replaceFrom find new (find.length - 1) rest
      | none => c :: replaceFrom find new 0 rest

theorem spliceAt_cons (new : Text) (width : Nat) (c : Char) (t : Text) {cursor : Nat}
    {offsets : List Nat} (h : ∀ n ∈ offsets, cursor + 1 ≤ n) :
    spliceAt new width (c :: t) cursor offsets =
      c :: spliceAt new width t (cursor + 1) offsets := by
  cases offsets with
  | nil => rfl
  | cons n rest =>
    have hn := h n List.mem_cons_self
    have hg : n - cursor = n - (cursor + 1) + 1 := by omega
    simp only [spliceAt, hg, List.take_succ_cons, List.cons_append, Nat.add_right_comm _ 1 width,
      List.drop_succ_cons]

theorem spliceAt_occurrencesFrom {find : Text} (new : Text) (hf : find ≠ []) (skip offset : Nat)
    (t : Text) :
    spliceAt new find.length (t.drop skip) (offset + skip)
        (occurrencesFrom find find.length skip offset t) = replaceFrom find new skip t := by
  induction t generalizing skip offset with
  | nil => simp [occurrencesFrom_nil, spliceAt, replaceFrom]
  | cons c rest ih =>
    cases skip with
    | succ skip =>
      have ho : offset + (skip + 1) = offset + 1 + skip := by omega
      rw [occurrencesFrom_skip, List.drop_succ_cons, replaceFrom, ho]
      exact ih skip (offset + 1)
    | zero =>
      rw [occurrencesFrom_zero, List.drop_zero, replaceFrom]
      cases hs : stripStart find (c :: rest) with
      | none =>
        simp only [Option.isSome_none, Bool.false_eq_true, if_false, Nat.add_zero]
        rw [spliceAt_cons _ _ _ _ fun n hn => le_of_mem_occurrencesFrom hn]
        exact congrArg _ (ih 0 (offset + 1))
      | some _ =>
        have hl : find.length = find.length - 1 + 1 := by
          have := List.length_pos_iff.2 hf
          omega
        have ho : offset + find.length = offset + 1 + (find.length - 1) := by omega
        have hd : (c :: rest).drop find.length = rest.drop (find.length - 1) := by
          rw [hl, List.drop_succ_cons, Nat.add_sub_cancel]
        simp only [Option.isSome_some, if_true, spliceAt, Nat.add_zero, Nat.sub_self,
          List.take_zero, List.nil_append, Nat.zero_add, hd, ho]
        exact congrArg _ (ih (find.length - 1) (offset + 1))

theorem replaceAll_eq_replaceFrom {find : Text} (hf : find ≠ []) (t new : Text) :
    replaceAll t find new = replaceFrom find new 0 t := by
  rw [replaceAll, offsetsOf_eq_occurrences]
  exact spliceAt_occurrencesFrom new hf 0 0 t

end DocTemplate.Text
