import DocTemplate.Text.Basic
import Mathlib.Data.List.Basic

/-!
# Texts made of lines

Texts that are put together with a separator between two of them: how one of them stands among the
others (`join_append_cons`), and how they are read back from the whole (`splitOn_join`). Blocks of
lines with an empty line between two of them are lines again (`join_map_join`), so splitting a text
into lines, and the lines at the empty ones, reads the blocks back (`splitOn_splitOn_join`).
-/

namespace DocTemplate.Text

/-! ## Joined texts -/

section Join

variable (separator : Text)

theorem join_cons_cons (s t : Text) (rest : List Text) :
    join separator (s :: t :: rest) = s ++ separator ++ join separator (t :: rest) := rfl

theorem join_cons (t : Text) (rest : List Text) :
    join separator (t :: rest) = t ++ rest.flatMap (separator ++ ·) := by
  induction rest generalizing t with
  | nil => exact (List.append_nil t).symm
  | cons s rest ih =>
    rw [join_cons_cons, ih, List.flatMap_cons, List.append_assoc, List.append_assoc]

/-- A text among others that are joined: each of those in front of it is followed by the separator,
each of those behind it is preceded by it. -/
theorem join_append_cons (before : List Text) (t : Text) (after : List Text) :
    join separator (before ++ t :: after) =
      before.flatMap (· ++ separator) ++ t ++ after.flatMap (separator ++ ·) := by
  induction before with
  | nil => exact join_cons separator t after
  | cons s before ih =>
    obtain ⟨u, rest, h⟩ := List.exists_cons_of_ne_nil
      (List.append_ne_nil_of_right_ne_nil before (List.cons_ne_nil t after))
    rw [List.cons_append, h, join_cons_cons, ← h, ih]
    simp only [List.flatMap_cons, List.append_assoc]

theorem join_append {a b : List Text} (ha : a ≠ []) (hb : b ≠ []) :
    join separator (a ++ b) = join separator a ++ separator ++ join separator b := by
  obtain ⟨s, a, rfl⟩ := List.exists_cons_of_ne_nil ha
  obtain ⟨t, b, rfl⟩ := List.exists_cons_of_ne_nil hb
  simp only [List.cons_append, join_cons, List.flatMap_append, List.flatMap_cons,
    List.append_assoc]

theorem join_eq_intercalate (texts : List Text) :
    join separator texts = separator.intercalate texts := by
  induction texts with
  | nil => rfl
  | cons t rest ih =>
    cases rest with
    | nil => exact List.intercalate_singleton.symm
    | cons s rest => rw [join_cons_cons, ih, List.intercalate_cons_cons]

end Join

/-- Texts without a character are read back from what they are joined to by that character. -/
theorem splitOn_join {c : Char} {texts : List Text} (h : ∀ t ∈ texts, c ∉ t) (hne : texts ≠ []) :
    (join [c] texts).splitOn c = texts := by
  rw [join_eq_intercalate, List.splitOn_intercalate c h hne]

/-! ## Blocks of lines -/

/-- The lines of some blocks, with an empty line between two blocks. -/
def linesOf (blocks : List (List Text)) : List Text :=
  [[]].intercalate blocks

theorem linesOf_cons_cons (b b' : List Text) (rest : List (List Text)) :
    linesOf (b :: b' :: rest) = b ++ [] :: linesOf (b' :: rest) := by
  rw [linesOf, List.intercalate_cons_cons, List.append_assoc]
  rfl

theorem linesOf_ne_nil {b : List Text} (h : b ≠ []) (rest : List (List Text)) :
    linesOf (b :: rest) ≠ [] := by
  cases rest with
  | nil => rwa [linesOf, List.intercalate_singleton]
  | cons b' rest =>
    rw [linesOf_cons_cons]
    exact List.append_ne_nil_of_left_ne_nil h _

theorem mem_linesOf {blocks : List (List Text)} {t : Text} (h : t ∈ linesOf blocks) :
    t = [] ∨ ∃ b ∈ blocks, t ∈ b := by
  induction blocks with
  | nil => exact absurd h List.not_mem_nil
  | cons b rest ih =>
    cases rest with
    | nil =>
      rw [linesOf, List.intercalate_singleton] at h
      exact .inr ⟨b, List.mem_cons_self, h⟩
    | cons b' rest =>
      rw [linesOf_cons_cons, List.mem_append, List.mem_cons] at h
      rcases h with h | h | h
      · exact .inr ⟨b, List.mem_cons_self, h⟩
      · exact .inl h
      · exact (ih h).imp_right fun ⟨b, hb, ht⟩ => ⟨b, List.mem_cons_of_mem _ hb, ht⟩

/-- Blocks that are joined with an empty line between two of them are joined lines. -/
theorem join_map_join {c : Char} {blocks : List (List Text)} (h : ∀ b ∈ blocks, b ≠ []) :
    join [c, c] (blocks.map (join [c])) = join [c] (linesOf blocks) := by
  induction blocks with
  | nil => rfl
  | cons b rest ih =>
    obtain ⟨hb, hrest⟩ := List.forall_mem_cons.1 h
    cases rest with
    | nil => rw [List.map_singleton, linesOf, List.intercalate_singleton]; rfl
    | cons b' rest =>
      obtain ⟨t, lines, hlines⟩ := List.exists_cons_of_ne_nil
        (linesOf_ne_nil (hrest b' List.mem_cons_self) rest)
      rw [List.map_cons, List.map_cons, join_cons_cons, ← List.map_cons, ih hrest,
        linesOf_cons_cons, join_append _ hb (List.cons_ne_nil _ _), hlines, join_cons_cons]
      simp only [List.append_assoc, List.nil_append, List.cons_append]

/-- Blocks of lines, none of them empty, are read back from the text that they make. -/
theorem splitOn_splitOn_join {c : Char} {blocks : List (List Text)} (h : ∀ b ∈ blocks, b ≠ [])
    (hlines : ∀ b ∈ blocks, ∀ t ∈ b, t ≠ [] ∧ c ∉ t) (hne : blocks ≠ []) :
    ((join [c, c] (blocks.map (join [c]))).splitOn c).splitOn [] = blocks := by
  have hchar : ∀ t ∈ linesOf blocks, c ∉ t := by
    intro t ht
    rcases mem_linesOf ht with rfl | ⟨b, hb, ht⟩
    · exact List.not_mem_nil
    · exact (hlines b hb t ht).2
  have hsome : linesOf blocks ≠ [] := by
    obtain ⟨b, rest, rfl⟩ := List.exists_cons_of_ne_nil hne
    exact linesOf_ne_nil (h b List.mem_cons_self) rest
  rw [join_map_join h, splitOn_join hchar hsome, linesOf]
  exact List.splitOn_intercalate [] (fun b hb ht => (hlines b hb [] ht).1 rfl) hne

/-! ## Columns -/

/-- The column that comes next behind a text: how many characters its last line has. -/
def column (t : Text) : Nat :=
  (t.reverse.takeWhile (· != '\n')).length

/-- A line can start behind the text: it is empty or ends with a newline. -/
def EndsLine (t : Text) : Prop :=
  t = [] ∨ ∃ s, t = s ++ ['\n']

/-- A line can end in front of the text: it is empty or starts with a newline. -/
def BreaksLine (t : Text) : Prop :=
  t = [] ∨ ∃ s, t = ['\n'] ++ s

theorem column_append {front rest : Text} (hfront : EndsLine front) (hrest : '\n' ∉ rest) :
    column (front ++ rest) = rest.length := by
  have hall : ∀ c ∈ rest.reverse, (c != '\n') = true :=
    fun c hc => bne_iff_ne.2 fun h => hrest (h ▸ List.mem_reverse.1 hc)
  have hend : front.reverse.takeWhile (· != '\n') = [] := by
    rcases hfront with rfl | ⟨s, rfl⟩
    · rfl
    · rw [List.reverse_append]
      rfl
  rw [column, List.reverse_append, List.takeWhile_append_of_pos hall, hend, List.append_nil,
    List.length_reverse]

theorem EndsLine.append {s t : Text} (hs : EndsLine s) (ht : EndsLine t) : EndsLine (s ++ t) := by
  rcases ht with rfl | ⟨u, rfl⟩
  · rwa [List.append_nil]
  · exact .inr ⟨s ++ u, (List.append_assoc s u _).symm⟩

/-- Texts that are each followed by a separator end a line if the separator does. -/
theorem endsLine_flatMap (separator : Text) (texts : List Text) :
    EndsLine (texts.flatMap (· ++ (separator ++ ['\n']))) := by
  induction texts with
  | nil => exact .inl rfl
  | cons t rest ih =>
    exact EndsLine.append (.inr ⟨t ++ separator, (List.append_assoc t separator _).symm⟩) ih

theorem BreaksLine.append {s t : Text} (hs : BreaksLine s) (ht : BreaksLine t) :
    BreaksLine (s ++ t) := by
  rcases hs with rfl | ⟨u, rfl⟩
  · exact ht
  · exact .inr ⟨u ++ t, List.append_assoc _ u t⟩

/-- Texts that each follow a separator break a line if the separator does. -/
theorem breaksLine_flatMap (separator : Text) (texts : List Text) :
    BreaksLine (texts.flatMap ((['\n'] ++ separator) ++ ·)) := by
  induction texts with
  | nil => exact .inl rfl
  | cons t rest ih => exact BreaksLine.append (.inr ⟨separator ++ t, rfl⟩) ih

end DocTemplate.Text
