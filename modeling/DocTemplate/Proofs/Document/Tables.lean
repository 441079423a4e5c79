import DocTemplate.Document.Anchor
import DocTemplate.Proofs.Failure

/-!
# Looking up an inserted table

Where the search for an inserted table leads. It looks only at the tables that stand directly in
the body, and not at those inside cells (`Body.allTables`). A table among them that starts exactly
at the index is found (`tableAt_of_start`). The search finds nothing only if every one of them
starts more than five positions before the index (`tableAt_eq_none_iff`); in every other case it
finds one of them, whether it was inserted or not.
-/

namespace DocTemplate

mutual

/-- The tables that a block is or holds, at any depth. -/
def Block.allTables : Block → List Table
  | .paragraph _ => []
  | .table t => t :: t.innerTables
  | .sectionBreak _ _ => []
  | .contents _ _ content => tablesOfBlocks content

/-- The tables inside the cells of a table, at any depth. -/
def Table.innerTables : Table → List Table
  | ⟨_, _, rows⟩ => tablesOfRows rows

/-- The tables inside the cells of rows, at any depth. -/
def tablesOfRows : List Row → List Table
  | [] => []
  | ⟨_, _, cells⟩ :: rest => tablesOfCells cells ++ tablesOfRows rest

/-- The tables inside cells, at any depth. -/
def tablesOfCells : List Cell → List Table
  | [] => []
  | ⟨_, _, content, _, _⟩ :: rest => tablesOfBlocks content ++ tablesOfCells rest

/-- The tables that blocks are or hold, at any depth. -/
def tablesOfBlocks : List Block → List Table
  | [] => []
  | block :: rest => block.allTables ++ tablesOfBlocks rest

end

/-- The tables of a body, at any depth. -/
def Body.allTables (b : Body) : List Table :=
  tablesOfBlocks b.content

theorem mem_tablesOfBlocks {t : Table} {content : List Block} (h : .table t ∈ content) :
    t ∈ tablesOfBlocks content := by
  induction content with
  | nil => exact absurd h List.not_mem_nil
  | cons block rest ih =>
    rw [tablesOfBlocks]
    rcases List.mem_cons.1 h with rfl | h
    · refine List.mem_append_left _ ?_
      rw [Block.allTables]
      exact List.mem_cons_self
    · exact List.mem_append_right _ (ih h)

theorem mem_allTables_of_mem_tables {b : Body} {t : Table} (h : t ∈ b.tables) :
    t ∈ b.allTables := by
  obtain ⟨block, hblock, ht⟩ := List.mem_filterMap.1 h
  cases block with
  | table t' =>
    obtain rfl := Option.some.inj ht
    exact mem_tablesOfBlocks hblock
  | paragraph p => exact absurd ht (by simp [Block.table?])
  | sectionBreak start stop => exact absurd ht (by simp [Block.table?])
  | contents start stop content => exact absurd ht (by simp [Block.table?])

/-- The value is a number below a bound. -/
def Json.IsBelow (j : Json) (bound : Int) : Prop :=
  ∃ n, j.number? = some n ∧ n.value < bound

/-! ## The first item -/

section FirstWhere

variable {α : Type} {p : α → Except Fault Bool} {items : List α}

theorem firstWhere?_eq_none_iff :
    firstWhere? p items = .ok none ↔ ∀ a ∈ items, p a = .ok false := by
  induction items with
  | nil => exact ⟨fun _ a ha => absurd ha List.not_mem_nil, fun _ => rfl⟩
  | cons a rest ih =>
    rw [List.forall_mem_cons, ← ih, firstWhere?, bind_eq_ok_iff]
    constructor
    · rintro ⟨found, hfound, h⟩
      cases found with
      | true => exact absurd (pure_eq_ok_iff.1 h) (by simp)
      | false =>
        obtain ⟨place, hplace, h⟩ := bind_eq_ok_iff.1 h
        obtain rfl := Option.map_eq_none_iff.1 (pure_eq_ok_iff.1 h)
        exact ⟨hfound, hplace⟩
    · rintro ⟨hfound, hrest⟩
      refine ⟨false, hfound, ?_⟩
      rw [if_neg Bool.false_ne_true, hrest]
      rfl

theorem lt_length_of_firstWhere? {n : Nat} (h : firstWhere? p items = .ok (some n)) :
    n < items.length := by
  induction items generalizing n with
  | nil => exact absurd h (by simp [firstWhere?])
  | cons a rest ih =>
    rw [firstWhere?, bind_eq_ok_iff] at h
    obtain ⟨found, -, h⟩ := h
    cases found with
    | true =>
      obtain rfl := Option.some.inj (pure_eq_ok_iff.1 h)
      exact Nat.zero_lt_succ _
    | false =>
      obtain ⟨place, hplace, h⟩ := bind_eq_ok_iff.1 h
      obtain ⟨k, rfl, rfl⟩ := Option.map_eq_some_iff.1 (pure_eq_ok_iff.1 h)
      exact Nat.succ_lt_succ (ih hplace)

end FirstWhere

/-! ## Where the search ends -/

section Search

variable {starts : List Json} {start : Json} {index : Int}

theorem compareNumbers_eq_ok_iff {operator : String} {related : Int → Int → Bool} {a b : Json}
    {holds : Bool} : Json.compareNumbers operator related a b = .ok holds ↔
      ∃ m n, a.number? = some m ∧ b.number? = some n ∧ related m.value n.value = holds := by
  unfold Json.compareNumbers
  cases a.number? with
  | none => simp
  | some m =>
    cases b.number? with
    | none => simp
    | some n => simp

theorem isNear_eq_false_iff : isNear index start = .ok false ↔
    ∃ n, start.number? = some n ∧ (n.value < index - 5 ∨ index + 50 < n.value) := by
  unfold isNear Json.atMost
  rw [bind_eq_ok_iff]
  constructor
  · rintro ⟨reached, hreached, h⟩
    obtain ⟨m, n, hm, hn, rfl⟩ := compareNumbers_eq_ok_iff.1 hreached
    obtain rfl := Option.some.inj hm
    refine ⟨n, hn, ?_⟩
    split at h
    · obtain ⟨m', n', hm', hn', hbeyond⟩ := compareNumbers_eq_ok_iff.1 h
      obtain rfl := Option.some.inj (hn.symm.trans hm')
      obtain rfl := Option.some.inj hn'
      rw [decide_eq_false_iff_not, Number.value_int] at hbeyond
      omega
    · next hbefore =>
      rw [decide_eq_true_eq, Number.value_int] at hbefore
      omega
  · rintro ⟨n, hn, hfar⟩
    refine ⟨_, compareNumbers_eq_ok_iff.2 ⟨_, n, rfl, hn, rfl⟩, ?_⟩
    split
    · next hreached =>
      refine compareNumbers_eq_ok_iff.2 ⟨n, _, hn, rfl, ?_⟩
      rw [decide_eq_true_eq, Number.value_int] at hreached
      rw [decide_eq_false_iff_not, Number.value_int]
      omega
    · rfl

theorem same_int_of_isBelow {bound : Int} (h : start.IsBelow bound) (hb : bound ≤ index) :
    start.same (.int index) = false := by
  obtain ⟨n, hn, hlt⟩ := h
  cases start with
  | int m =>
    obtain rfl := Option.some.inj hn
    rw [Json.same_int, beq_eq_false_iff_ne]
    rw [Number.value_int] at hlt
    omega
  | bool b =>
    obtain rfl := Option.some.inj hn
    simp only [Json.same, Json.sameNumber, Json.number?, beq_eq_false_iff_ne, Number.value_int]
    omega
  | null => exact absurd hn (by simp [Json.number?])
  | str s => exact absurd hn (by simp [Json.number?])
  | arr items => exact absurd hn (by simp [Json.number?])
  | obj fields => exact absurd hn (by simp [Json.number?])

/-- The search finds nothing if and only if everything stands more than five positions before the
index. -/
theorem insertedTable_eq_none_iff : insertedTable starts (.int index) = .ok none ↔
    ∀ start ∈ starts, start.IsBelow (index - 5) := by
  rw [insertedTable]
  cases hexact : starts.findIdx? (·.same (.int index)) with
  | some n =>
    obtain ⟨start, hstart, hsame⟩ : ∃ start ∈ starts, start.same (.int index) = true := by
      obtain ⟨hn, hsame, -⟩ := List.findIdx?_eq_some_iff_getElem.1 hexact
      exact ⟨starts[n], List.getElem_mem hn, hsame⟩
    constructor
    · intro h
      exact absurd (pure_eq_ok_iff.1 h) (by simp)
    · intro h
      rw [same_int_of_isBelow (h start hstart) (by omega)] at hsame
      exact absurd hsame Bool.false_ne_true
  | none =>
    simp only [Json.minus_int, bind_eq_ok_iff, Except.ok.injEq, exists_eq_left', Int.sub_zero]
    constructor
    · rintro ⟨near, hnear, h⟩ start hstart
      cases near with
      | some n => exact absurd (pure_eq_ok_iff.1 h) (by simp)
      | none =>
        obtain ⟨n, hn, hfar⟩ := isNear_eq_false_iff.1 (firstWhere?_eq_none_iff.1 hnear _ hstart)
        obtain ⟨m, i, hm, hi, hbefore⟩ :=
          compareNumbers_eq_ok_iff.1 (firstWhere?_eq_none_iff.1 h _ hstart)
        obtain rfl := Option.some.inj (hn.symm.trans hm)
        obtain rfl := Option.some.inj hi
        rw [decide_eq_false_iff_not, Number.value_int] at hbefore
        exact ⟨n, hn, by omega⟩
    · intro h
      refine ⟨none, firstWhere?_eq_none_iff.2 fun start hstart => ?_,
        firstWhere?_eq_none_iff.2 fun start hstart => ?_⟩
      · obtain ⟨n, hn, hlt⟩ := h start hstart
        exact isNear_eq_false_iff.2 ⟨n, hn, .inl hlt⟩
      · obtain ⟨n, hn, hlt⟩ := h start hstart
        refine compareNumbers_eq_ok_iff.2 ⟨n, _, hn, rfl, ?_⟩
        rw [decide_eq_false_iff_not, Number.value_int]
        omega

theorem lt_length_of_insertedTable {index : Json} {n : Nat}
    (h : insertedTable starts index = .ok (some n)) : n < starts.length := by
  rw [insertedTable] at h
  cases hexact : starts.findIdx? (·.same index) with
  | some found =>
    rw [hexact] at h
    obtain rfl := Option.some.inj (pure_eq_ok_iff.1 h)
    exact (List.findIdx?_eq_some_iff_getElem.1 hexact).1
  | none =>
    simp only [hexact, bind_eq_ok_iff] at h
    obtain ⟨place, -, near, hnear, h⟩ := h
    cases near with
    | some found =>
      obtain rfl := Option.some.inj (pure_eq_ok_iff.1 h)
      exact lt_length_of_firstWhere? hnear
    | none => exact lt_length_of_firstWhere? h

end Search

/-! ## Tables of a snapshot -/

section Snapshot

variable {s : Snapshot} {t : Table} {index : Int}

theorem tableAt_eq_none_iff : s.tableAt (.int index) = .ok none ↔
    ∀ t ∈ s.body.tables, t.start.IsBelow (index - 5) := by
  have hstarts : (∀ start ∈ s.body.tables.map (·.start), start.IsBelow (index - 5)) ↔
      ∀ t ∈ s.body.tables, t.start.IsBelow (index - 5) := List.forall_mem_map
  rw [Snapshot.tableAt, bind_eq_ok_iff, ← hstarts, ← insertedTable_eq_none_iff]
  constructor
  · rintro ⟨found, hfound, h⟩
    cases found with
    | none => exact hfound
    | some n =>
      have hn := lt_length_of_insertedTable hfound
      rw [List.length_map] at hn
      exact absurd (pure_eq_ok_iff.1 h) (by simp [List.getElem?_eq_getElem hn])
  · intro h
    exact ⟨none, h, rfl⟩

theorem mem_of_tableAt {index : Json} (h : s.tableAt index = .ok (some t)) :
    t ∈ s.body.tables := by
  rw [Snapshot.tableAt, bind_eq_ok_iff] at h
  obtain ⟨found, -, h⟩ := h
  obtain ⟨n, -, hn⟩ := Option.bind_eq_some_iff.1 (pure_eq_ok_iff.1 h)
  exact List.mem_of_getElem? hn

/-- The first table that starts at an index is found there. -/
theorem tableAt_of_find? (h : s.body.tables.find? (·.start.same (.int index)) = some t) :
    s.tableAt (.int index) = .ok (some t) := by
  obtain ⟨hsame, n, hn, rfl, hbefore⟩ := List.find?_eq_some_iff_getElem.1 h
  have hfound : (s.body.tables.map (·.start)).findIdx? (·.same (.int index)) = some n := by
    refine List.findIdx?_eq_some_iff_getElem.2 ⟨by rwa [List.length_map], ?_, fun j hj => ?_⟩
    · rwa [List.getElem_map]
    · rw [List.getElem_map]
      simpa using hbefore j hj
  rw [Snapshot.tableAt, insertedTable, hfound]
  exact congrArg Except.ok (List.getElem?_eq_getElem hn)

/-- A table that is the only one to start at an index is found there. -/
theorem tableAt_of_start (ht : t ∈ s.body.tables) (hstart : t.start = .int index)
    (hunique : ∀ t' ∈ s.body.tables, t'.start.same (.int index) = true → t' = t) :
    s.tableAt (.int index) = .ok (some t) := by
  have hsame : t.start.same (.int index) = true := by
    rw [hstart, Json.same_int, beq_self_eq_true]
  cases hfirst : s.body.tables.find? (·.start.same (.int index)) with
  | none => exact absurd hsame (List.find?_eq_none.1 hfirst t ht)
  | some t' =>
    have hsame' := List.find?_some hfirst
    obtain rfl := hunique t' (List.mem_of_find?_eq_some hfirst) hsame'
    exact tableAt_of_find? hfirst

end Snapshot

end DocTemplate
