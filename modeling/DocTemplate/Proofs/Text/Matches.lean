import DocTemplate.Text.Basic
import Mathlib.Data.List.Pairwise

/-!
# Leftmost matches

What the scan for leftmost matches finds. Every match is one that the matcher answers at its offset
(`find_of_mem_scanFrom`), matches follow each other without overlap (`pairwise_scanFrom`), and no
offset at which the matcher answers is passed over: it stands in one of the matches that are found
(`exists_mem_scanFrom`).
-/

namespace DocTemplate.Text

variable {α : Type}

/-! ## Slices -/

theorem length_slice (t : Text) (start stop : Nat) :
    (t.slice start stop).length = min (stop - start) (t.length - start) := by
  rw [slice, List.length_take, List.length_drop]

theorem drop_slice (t : Text) (start stop k : Nat) :
    (t.slice start stop).drop k = t.slice (start + k) stop := by
  rw [slice, slice, List.drop_take, List.drop_drop, Nat.sub_sub]

theorem slice_append_right (a b : Text) (stop : Nat) :
    slice (a ++ b) a.length (a.length + stop) = b.take stop := by
  rw [slice, List.drop_left, Nat.add_sub_cancel_left]

/-! ## What is found -/

/-- What a matcher answers is at least one character long and stands in the text it was shown. -/
def Fits (find : Text → Option (α × Nat)) : Prop :=
  ∀ ⦃t value size⦄, find t = some (value, size) → 0 < size ∧ size ≤ t.length

variable {find : Text → Option (α × Nat)}

theorem scanFrom_of_some {c : Char} {rest : Text} {value : α} {size : Nat} (offset : Nat)
    (h : find (c :: rest) = some (value, size)) :
    scanFrom find 0 offset (c :: rest) =
      ⟨offset, offset + size, value⟩ :: scanFrom find (size - 1) (offset + 1) rest := by
  simp only [scanFrom, h]

theorem scanFrom_of_none {c : Char} {rest : Text} (offset : Nat) (h : find (c :: rest) = none) :
    scanFrom find 0 offset (c :: rest) = scanFrom find 0 (offset + 1) rest := by
  simp only [scanFrom, h]

theorem le_start_of_mem_scanFrom {skip offset : Nat} {t : Text} {f : Found α}
    (h : f ∈ scanFrom find skip offset t) : offset + skip ≤ f.start := by
  induction t generalizing skip offset with
  | nil => simp [scanFrom] at h
  | cons c rest ih =>
    cases skip with
    | succ skip =>
      have := ih h
      omega
    | zero =>
      cases hf : find (c :: rest) with
      | none =>
        rw [scanFrom_of_none offset hf] at h
        have := ih h
        omega
      | some found =>
        rw [scanFrom_of_some offset hf, List.mem_cons] at h
        rcases h with rfl | h
        · exact Nat.le_refl _
        · have := ih h
          omega

theorem find_of_mem_scanFrom {skip offset : Nat} {t : Text} {f : Found α}
    (h : f ∈ scanFrom find skip offset t) :
    ∃ k size, k < t.length ∧ f.start = offset + k ∧ f.stop = f.start + size ∧
      find (t.drop k) = some (f.value, size) := by
  induction t generalizing skip offset with
  | nil => simp [scanFrom] at h
  | cons c rest ih =>
    -- a match behind the first character is one of the text behind it
    have later : ∀ {skip' : Nat}, f ∈ scanFrom find skip' (offset + 1) rest →
        ∃ k size, k < (c :: rest).length ∧ f.start = offset + k ∧ f.stop = f.start + size ∧
          find ((c :: rest).drop k) = some (f.value, size) := by
      intro skip' h
      obtain ⟨k, size, hk, hstart, hstop, hfind⟩ := ih h
      refine ⟨k + 1, size, ?_, ?_, hstop, ?_⟩
      · simpa using hk
      · omega
      · simpa using hfind
    cases skip with
    | succ skip => exact later h
    | zero =>
      cases hf : find (c :: rest) with
      | none =>
        rw [scanFrom_of_none offset hf] at h
        exact later h
      | some found =>
        obtain ⟨value, size⟩ := found
        rw [scanFrom_of_some offset hf, List.mem_cons] at h
        rcases h with rfl | h
        · exact ⟨0, size, by simp, rfl, rfl, hf⟩
        · exact later h

theorem pairwise_scanFrom (hfit : Fits find) (skip offset : Nat) (t : Text) :
    (scanFrom find skip offset t).Pairwise fun a b => a.stop ≤ b.start := by
  induction t generalizing skip offset with
  | nil => exact .nil
  | cons c rest ih =>
    cases skip with
    | succ skip => exact ih skip (offset + 1)
    | zero =>
      cases hf : find (c :: rest) with
      | none =>
        rw [scanFrom_of_none offset hf]
        exact ih 0 (offset + 1)
      | some found =>
        obtain ⟨value, size⟩ := found
        have hpos := (hfit hf).1
        rw [scanFrom_of_some offset hf]
        refine .cons (fun b hb => ?_) (ih (size - 1) (offset + 1))
        have := le_start_of_mem_scanFrom hb
        show offset + size ≤ b.start
        omega

/-- An offset at which the matcher answers stands in one of the matches. -/
theorem exists_mem_scanFrom (hfit : Fits find) {skip k : Nat} {t : Text} (offset : Nat)
    (hskip : skip ≤ k) (hk : k < t.length) (h : (find (t.drop k)).isSome = true) :
    ∃ f ∈ scanFrom find skip offset t, f.start ≤ offset + k ∧ offset + k < f.stop := by
  induction t generalizing skip offset k with
  | nil => simp at hk
  | cons c rest ih =>
    -- from the second character on, the offset is looked for in the rest
    have later : ∀ {skip' k' : Nat}, k = k' + 1 → skip' ≤ k' →
        ∃ f ∈ scanFrom find skip' (offset + 1) rest,
          f.start ≤ offset + k ∧ offset + k < f.stop := by
      rintro skip' k' rfl hle
      obtain ⟨f, hf, h1, h2⟩ := ih (offset + 1) hle (by simpa using hk) (by simpa using h)
      exact ⟨f, hf, by omega, by omega⟩
    cases skip with
    | succ skip =>
      obtain ⟨k', rfl⟩ := Nat.exists_eq_add_one_of_ne_zero (by omega : k ≠ 0)
      exact later rfl (by omega)
    | zero =>
      cases hf : find (c :: rest) with
      | none =>
        have hne : k ≠ 0 := by
          rintro rfl
          rw [List.drop_zero, hf] at h
          exact Bool.false_ne_true h
        obtain ⟨k', rfl⟩ := Nat.exists_eq_add_one_of_ne_zero hne
        rw [scanFrom_of_none offset hf]
        exact later rfl (Nat.zero_le _)
      | some found =>
        obtain ⟨value, size⟩ := found
        rw [scanFrom_of_some offset hf]
        rcases Nat.lt_or_ge k size with hlt | hge
        · exact ⟨_, List.mem_cons_self, Nat.le_add_right _ _, by
            show offset + k < offset + size
            omega⟩
        · have hpos := (hfit hf).1
          obtain ⟨k', rfl⟩ := Nat.exists_eq_add_one_of_ne_zero (by omega : k ≠ 0)
          have hskip : size - 1 ≤ k' := by omega
          obtain ⟨f, hmem, h1, h2⟩ := later rfl hskip
          exact ⟨f, List.mem_cons_of_mem _ hmem, h1, h2⟩

/-- Of items that follow each other without overlap, only one stands around an offset. -/
theorem eq_of_overlap {β : Type} {start stop : β → Nat} {items : List β}
    (h : items.Pairwise fun a b => stop a ≤ start b) {a b : β} (ha : a ∈ items) (hb : b ∈ items)
    {i : Nat} (hia : start a ≤ i ∧ i < stop a) (hib : start b ≤ i ∧ i < stop b) : a = b := by
  by_contra hne
  let apart (a b : β) : Prop := stop a ≤ start b ∨ stop b ≤ start a
  have : Std.Symm apart := ⟨fun _ _ => Or.symm⟩
  have hapart : items.Pairwise apart := h.imp Or.inl
  rcases hapart.forall ha hb hne with h | h <;> omega

/-! ## In a part of a text -/

theorem find_of_mem_scanWithin {t : Text} {start stop : Nat} {f : Found α}
    (h : f ∈ t.scanWithin find start stop) :
    ∃ size, start ≤ f.start ∧ f.start < t.length ∧ f.stop = f.start + size ∧
      find (t.slice f.start stop) = some (f.value, size) := by
  obtain ⟨k, size, hk, hstart, hstop, hfind⟩ := find_of_mem_scanFrom h
  rw [drop_slice, ← hstart] at hfind
  rw [length_slice] at hk
  exact ⟨size, by omega, by omega, hstop, hfind⟩

/-- A match in a part of a text stands in that part. -/
theorem bounds_of_mem_scanWithin (hfit : Fits find) {t : Text} {start stop : Nat} {f : Found α}
    (h : f ∈ t.scanWithin find start stop) :
    start ≤ f.start ∧ f.start < f.stop ∧ f.stop ≤ stop ∧ f.stop ≤ t.length := by
  obtain ⟨size, hstart, -, hstop, hfind⟩ := find_of_mem_scanWithin h
  obtain ⟨hpos, hle⟩ := hfit hfind
  rw [length_slice] at hle
  omega

/-! ## The literals of the matches -/

/-- The literals of the leftmost matches in a text. -/
def literals (find : Text → Option (α × Nat)) (t : Text) : List Text :=
  (scanFrom find 0 0 t).map fun f => t.slice f.start f.stop

theorem scanFrom_add (skip offset k : Nat) (t : Text) :
    scanFrom find skip (offset + k) t =
      (scanFrom find skip offset t).map fun f => ⟨f.start + k, f.stop + k, f.value⟩ := by
  induction t generalizing skip offset with
  | nil => rfl
  | cons c rest ih =>
    have hnext : offset + k + 1 = offset + 1 + k := by omega
    cases skip with
    | succ skip =>
      simp only [scanFrom]
      rw [hnext, ih]
    | zero =>
      cases hf : find (c :: rest) with
      | none => rw [scanFrom_of_none _ hf, scanFrom_of_none _ hf, hnext, ih]
      | some found =>
        obtain ⟨value, size⟩ := found
        have hstop : offset + k + size = offset + size + k := by omega
        rw [scanFrom_of_some _ hf, scanFrom_of_some _ hf, List.map_cons, hnext, ih, hstop]

/-- What is still to come of a match is passed over. -/
theorem scanFrom_length (a t : Text) (offset : Nat) :
    scanFrom find a.length offset (a ++ t) = scanFrom find 0 (offset + a.length) t := by
  induction a generalizing offset with
  | nil => rfl
  | cons c a ih =>
    rw [List.cons_append, List.length_cons, scanFrom, ih, Nat.add_right_comm, Nat.add_assoc]

theorem map_slice_scanFrom (a t : Text) :
    ((scanFrom find 0 a.length t).map fun f => (a ++ t).slice f.start f.stop) =
      literals find t := by
  have hshift := @scanFrom_add α find 0 0 a.length t
  rw [Nat.zero_add] at hshift
  rw [hshift, List.map_map, literals]
  refine List.map_congr_left fun f _ => ?_
  show (a ++ t).slice (f.start + a.length) (f.stop + a.length) = t.slice f.start f.stop
  rw [slice, slice, Nat.add_sub_add_right, Nat.add_comm f.start, List.drop_length_add_append]

theorem literals_of_none {c : Char} {t : Text} (h : find (c :: t) = none) :
    literals find (c :: t) = literals find t := by
  rw [literals, scanFrom_of_none 0 h]
  exact map_slice_scanFrom [c] t

/-- A stretch in which no match starts is passed over. -/
theorem literals_append {a t : Text} (h : ∀ s, s <:+ a → s ≠ [] → find (s ++ t) = none) :
    literals find (a ++ t) = literals find t := by
  induction a with
  | nil => rfl
  | cons c a ih =>
    have hnone : find (c :: (a ++ t)) = none := h _ List.suffix_rfl (List.cons_ne_nil c a)
    rw [List.cons_append, literals_of_none hnone]
    exact ih fun s hs => h s (hs.trans (List.suffix_cons c a))

theorem literals_of_some (hfit : Fits find) {a t : Text} {value : α}
    (h : find (a ++ t) = some (value, a.length)) :
    literals find (a ++ t) = a :: literals find t := by
  obtain ⟨c, a, rfl⟩ := List.exists_cons_of_length_pos (hfit h).1
  rw [List.cons_append] at h ⊢
  rw [literals, scanFrom_of_some 0 h, List.map_cons, List.length_cons,
    Nat.add_sub_cancel, scanFrom_length, ← map_slice_scanFrom (c :: a) t]
  refine congrArg₂ _ ?_ ?_
  · show slice ((c :: a) ++ t) 0 (0 + (c :: a).length) = c :: a
    rw [slice, List.drop_zero, Nat.zero_add, Nat.sub_zero, List.take_left]
  · rw [List.length_cons, Nat.zero_add, Nat.add_comm 1]
    rfl

end DocTemplate.Text
