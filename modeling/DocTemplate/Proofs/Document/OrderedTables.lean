import DocTemplate.Proofs.Document.Tables

/-!
# Tables in order

The search for an inserted table goes over the tables up to three times: for one that starts exactly
at the index, for one that starts near it, and for one behind it. Among tables that are listed in
the order in which they start, this is one search for the first table that starts no more than five
positions before the index, unless there is an exact match (`insertedTable_ordered`).

The induction is along the tables (`findIdx?_near_or_behind`). What carries it is that behind a
table that starts too far behind the index to be near it there are none that are near.
-/

namespace DocTemplate

/-! ## Searches that cannot fail -/

theorem firstWhere?_eq_findIdx? {α : Type} {p : α → Except Fault Bool} {q : α → Bool}
    {items : List α} (h : ∀ a ∈ items, p a = .ok (q a)) :
    firstWhere? p items = .ok (items.findIdx? q) := by
  induction items with
  | nil => rfl
  | cons a rest ih =>
    obtain ⟨ha, hrest⟩ := List.forall_mem_cons.1 h
    rw [firstWhere?, ha, ih hrest, List.findIdx?_cons]
    cases q a <;> rfl

theorem firstWhere?_int {p : Json → Except Fault Bool} {q : Int → Bool} {starts : List Int}
    (h : ∀ start, p (.int start) = .ok (q start)) :
    firstWhere? p (starts.map .int) = .ok (starts.findIdx? q) := by
  have hp : ∀ j ∈ starts.map Json.int, p j = .ok (q (j.int?.getD 0)) := by
    intro j hj
    obtain ⟨start, -, rfl⟩ := List.mem_map.1 hj
    exact h start
  rw [firstWhere?_eq_findIdx? hp, List.findIdx?_map]
  rfl

/-- The start lies from five before to fifty after an index. -/
def startsNear (index start : Int) : Bool :=
  index - 5 ≤ start && start ≤ index + 50

theorem isNear_int (index start : Int) :
    isNear index (.int start) = .ok (startsNear index start) := by
  rw [isNear, startsNear, Json.atMost_int]
  show (if decide (index - 5 ≤ start) = true then _ else _) = _
  by_cases hreached : index - 5 ≤ start
  · rw [decide_eq_true hreached, if_pos rfl, Json.atMost_int, Bool.true_and]
  · rw [decide_eq_false hreached, if_neg Bool.false_ne_true, Bool.false_and]
    rfl

/-- The three searches, one after another. -/
theorem insertedTable_int (starts : List Int) (index : Int) :
    insertedTable (starts.map .int) (.int index) =
      .ok ((starts.findIdx? (· == index)).or
        ((starts.findIdx? (startsNear index)).or (starts.findIdx? (index ≤ ·)))) := by
  have hexact : (starts.map Json.int).findIdx? (·.same (.int index)) =
      starts.findIdx? (· == index) := by
    rw [List.findIdx?_map]
    exact congrArg (List.findIdx? · starts) (funext fun start => Json.same_int start index)
  rw [insertedTable, hexact]
  cases starts.findIdx? (· == index) with
  | some n => rfl
  | none =>
    rw [Json.minus_int, Int.sub_zero]
    show (firstWhere? (isNear index) _ >>= _) = _
    rw [firstWhere?_int (isNear_int index)]
    cases starts.findIdx? (startsNear index) with
    | some n => rfl
    | none => exact firstWhere?_int fun start => Json.atLeast_int start index

/-! ## One search -/

variable {starts : List Int} {index : Int}

/-- A search for a start near an index and then for one behind it is one search, if the starts are
in order. -/
theorem findIdx?_near_or_behind (h : starts.Pairwise (· ≤ ·)) :
    (starts.findIdx? (startsNear index)).or (starts.findIdx? (index ≤ ·)) =
      starts.findIdx? (index - 5 ≤ ·) := by
  induction starts with
  | nil => rfl
  | cons start rest ih =>
    obtain ⟨hfirst, hrest⟩ := List.pairwise_cons.1 h
    rcases Int.lt_or_le start (index - 5) with hbefore | hreached
    · have hnear : startsNear index start = false := by simp [startsNear]; omega
      have hbehind : decide (index ≤ start) = false := by simp; omega
      have hfrom : decide (index - 5 ≤ start) = false := by simp; omega
      simp only [List.findIdx?_cons, hnear, hbehind, hfrom, Bool.false_eq_true, if_false,
        ← ih hrest]
      cases rest.findIdx? (startsNear index) <;> rfl
    rw [List.findIdx?_cons (p := (index - 5 ≤ ·)), decide_eq_true hreached, if_pos rfl]
    rcases Int.lt_or_le (index + 50) start with hbeyond | hnear
    · -- all other starts lie even further behind the index
      have hnone : (start :: rest).findIdx? (startsNear index) = none := by
        refine List.findIdx?_eq_none_iff.2 fun other hother => ?_
        have hle : start ≤ other := by
          rcases List.mem_cons.1 hother with rfl | hlater
          · exact Int.le_refl _
          · exact hfirst other hlater
        simp [startsNear]
        omega
      have hbehind : index ≤ start := by omega
      rw [hnone, Option.none_or, List.findIdx?_cons, decide_eq_true hbehind, if_pos rfl]
    · have hfound : startsNear index start = true := by simp [startsNear]; omega
      rw [List.findIdx?_cons, hfound, if_pos rfl]
      rfl

/-- Which of some tables one search in order picks for an index: the first one that starts exactly
there, or else the first one that starts no more than five positions before it. -/
def orderedSearch (starts : List Int) (index : Int) : Option Nat :=
  (starts.findIdx? (· == index)).or (starts.findIdx? (index - 5 ≤ ·))

theorem isBelow_int {start bound : Int} : (Json.int start).IsBelow bound ↔ start < bound := by
  constructor
  · rintro ⟨n, hn, hlt⟩
    obtain rfl := Option.some.inj hn
    exact hlt
  · exact fun hlt => ⟨_, rfl, hlt⟩

theorem le_of_findIdx? {p : Int → Bool} {bound : Int}
    (hp : ∀ start, p start = true → bound ≤ start) {n : Nat} (h : starts.findIdx? p = some n) :
    ∃ start, starts[n]? = some start ∧ bound ≤ start := by
  obtain ⟨hn, hstart, -⟩ := List.findIdx?_eq_some_iff_getElem.1 h
  exact ⟨starts[n], List.getElem?_eq_getElem hn, hp _ hstart⟩

/-- What the search finds, in whatever order the tables are listed, starts no more than five
positions before the index. -/
theorem le_of_insertedTable {n : Nat}
    (h : insertedTable (starts.map .int) (.int index) = .ok (some n)) :
    ∃ start, starts[n]? = some start ∧ index - 5 ≤ start := by
  rw [insertedTable_int] at h
  rcases Option.or_eq_some_iff.1 (Except.ok.inj h) with hexact | ⟨-, h⟩
  · refine le_of_findIdx? (fun start hstart => ?_) hexact
    have := beq_iff_eq.1 hstart
    omega
  rcases Option.or_eq_some_iff.1 h with hnear | ⟨-, hbehind⟩
  · refine le_of_findIdx? (fun start hstart => ?_) hnear
    exact of_decide_eq_true (Bool.and_eq_true_iff.1 hstart).1
  · refine le_of_findIdx? (fun start hstart => ?_) hbehind
    have := of_decide_eq_true hstart
    omega

/-- **The search for an inserted table is one search in order.** Among tables that are listed in the
order in which they start, it picks what `orderedSearch` picks. In whatever order they are listed,
it comes to an end, finds nothing if and only if every table starts more than five positions before
the index, and never finds one that does. -/
theorem insertedTable_ordered (starts : List Int) (index : Int) :
    (starts.Pairwise (· ≤ ·) →
      insertedTable (starts.map .int) (.int index) = .ok (orderedSearch starts index)) ∧
    (insertedTable (starts.map .int) (.int index) = .ok none ↔
      ∀ start ∈ starts, start < index - 5) ∧
    ∃ found, insertedTable (starts.map .int) (.int index) = .ok found ∧
      ∀ n, found = some n → ∃ start, starts[n]? = some start ∧ index - 5 ≤ start := by
  refine ⟨fun h => ?_, ?_, _, insertedTable_int starts index, fun n hn => ?_⟩
  · rw [insertedTable_int, findIdx?_near_or_behind h, orderedSearch]
  · rw [insertedTable_eq_none_iff, List.forall_mem_map]
    exact forall₂_congr fun _ _ => isBelow_int
  · exact le_of_insertedTable ((insertedTable_int starts index).trans (congrArg Except.ok hn))

/-- Two tables start exactly five positions before the index, one starts further in front, and two
start behind it. -/
theorem insertedTable_ordered_atWindow :
    [(1 : Int), 7, 7, 30, 90].Pairwise (· ≤ ·) ∧
      insertedTable ([1, 7, 7, 30, 90].map .int) (.int 12) = .ok (some 1) ∧
      insertedTable ([1, 7, 7, 30, 90].map .int) (.int 13) = .ok (some 3) := by
  have hsorted : [(1 : Int), 7, 7, 30, 90].Pairwise (· ≤ ·) := by decide
  exact ⟨hsorted, (insertedTable_ordered [1, 7, 7, 30, 90] 12).1 hsorted,
    (insertedTable_ordered [1, 7, 7, 30, 90] 13).1 hsorted⟩

end DocTemplate
