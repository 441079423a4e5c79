import DocTemplate.Document.Linear
import DocTemplate.Proofs.Document.Reading
import Mathlib

/-!
# The text of a document and where it comes from

A document is a tree, and each of its runs of text is held at a path of that tree: the positions of
the blocks, rows, cells and elements on the way from the body down to the run (`Holds`). Reading
order is the lexicographic order of these paths, since every field that is gone down into lists its
items in that order.

The linear text of a document is made of the runs at all paths, each once and in the order of their
paths, and every character keeps its index, its run and the innermost cell around it
(`linearOfDocument_traced`).
-/

namespace DocTemplate

/-- A run of text as a document holds it: where it starts, its characters, and the innermost cell
around it. -/
structure Passage where
  start : Number
  content : Text
  cell : Option CellPosition

/-- The origins of the characters of a passage: each character stands as many code units behind the
start as the characters before it take. -/
def Passage.origins (x : Passage) : List Origin :=
  (List.range x.content.length).map fun k =>
    ⟨x.start.value + Text.units (x.content.take k), x.start, x.cell⟩

/-- The passage that an element of a paragraph holds, if it is a run of text. -/
def Json.passage? (j start : Json) (cell : Option CellPosition) : Option Passage := do
  let run ← j.get? "textRun"
  let s ← ((run.get? "content").getD (.str "")).string?
  let first ← (j.startOr start).number?
  return ⟨first, s.toList, cell⟩

/-- What a block inside `cell` holds at a path. In a paragraph, a path is the position of an
element. In a table, it is the positions of a row, of a cell and of a block, and then a path of that
block. In a table of contents, it is the position of a block, and then a path of that block. -/
inductive Holds : Json → Option CellPosition → List Nat → Passage → Prop
  | run {j q element : Json} {cell : Option CellPosition} {k : Nat} {x : Passage} :
      j.get? "paragraph" = some q → (q.itemsAt "elements")[k]? = some element →
      element.passage? (j.startOr (.int 0)) cell = some x → Holds j cell [k] x
  | cell {j q row c inner : Json} {around : Option CellPosition} {r k i : Nat} {path : List Nat}
      {x : Passage} :
      j.get? "paragraph" = none → j.get? "table" = some q →
      (q.itemsAt "tableRows")[r]? = some row → (row.itemsAt "tableCells")[k]? = some c →
      (c.itemsAt "content")[i]? = some inner →
      Holds inner (some ⟨j.startOr (.int 0), r, k⟩) path x → Holds j around (r :: k :: i :: path) x
  | contents {j q inner : Json} {cell : Option CellPosition} {i : Nat} {path : List Nat}
      {x : Passage} :
      j.get? "paragraph" = none → j.get? "table" = none → j.get? "sectionBreak" = none →
      j.get? "tableOfContents" = some q → (q.itemsAt "content")[i]? = some inner →
      Holds inner cell path x → Holds j cell (i :: path) x

/-- What a body holds at a path that begins with the position of a block. -/
def HoldsAt (body : Json) (path : List Nat) (x : Passage) : Prop :=
  ∃ i rest block, path = i :: rest ∧ (body.itemsAt "content")[i]? = some block ∧
    Holds block none rest x

/-- A list of what is held at the paths of a tree: all of it, each path once, in lexicographic
order. -/
structure Enumerates {α : Type} (P : List Nat → α → Prop) (xs : List (List Nat × α)) : Prop where
  sorted : xs.Pairwise fun a b => a.1 < b.1
  mem_iff : ∀ path x, (path, x) ∈ xs ↔ P path x

/-! ## Listing what is held -/

section Lists

variable {α γ : Type} {P Q : List Nat → α → Prop}

/-- The items of a list are what is held at the paths of a tree, in the order of the paths. -/
def Lists (P : List Nat → α → Prop) (xs : List α) : Prop :=
  ∃ entries, Enumerates P entries ∧ entries.map Prod.snd = xs

/-- What is held at a path that begins with the position of an item, counted from `first` on. -/
def AtItem (R : Nat → γ → List Nat → α → Prop) (first : Nat) (items : List γ) (path : List Nat)
    (x : α) : Prop :=
  ∃ i rest a, path = (first + i) :: rest ∧ items[i]? = some a ∧ R (first + i) a rest x

theorem lists_nil (h : ∀ path x, ¬ P path x) : Lists P [] :=
  ⟨[], ⟨.nil, fun path x => ⟨fun hx => absurd hx List.not_mem_nil, fun hx => absurd hx (h path x)⟩⟩,
    rfl⟩

theorem lists_singleton {x : α} (h : ∀ path y, P path y ↔ path = [] ∧ y = x) : Lists P [x] := by
  refine ⟨[([], x)], ⟨List.pairwise_singleton _ _, fun path y => ?_⟩, rfl⟩
  rw [h, List.mem_singleton, Prod.mk.injEq]

theorem Lists.congr {xs : List α} (hxs : Lists P xs) (h : ∀ path x, P path x ↔ Q path x) :
    Lists Q xs := by
  obtain ⟨entries, hentries, hmap⟩ := hxs
  exact ⟨entries, ⟨hentries.sorted, fun path x => (hentries.mem_iff path x).trans (h path x)⟩, hmap⟩

variable {R : Nat → γ → List Nat → α → Prop} {first : Nat}

theorem atItem_nil {path : List Nat} {x : α} : ¬ AtItem R first [] path x := by
  rintro ⟨i, rest, a, -, ha, -⟩
  exact absurd ha (by simp)

theorem atItem_cons {a : γ} {items : List γ} {path : List Nat} {x : α} :
    AtItem R first (a :: items) path x ↔
      (∃ rest, path = first :: rest ∧ R first a rest x) ∨ AtItem R (first + 1) items path x := by
  constructor
  · rintro ⟨i, rest, c, rfl, hc, h⟩
    cases i with
    | zero =>
      obtain rfl : a = c := by simpa using hc
      exact .inl ⟨rest, rfl, h⟩
    | succ i =>
      rw [← Nat.add_assoc, Nat.add_right_comm] at h ⊢
      exact .inr ⟨i, rest, c, rfl, by simpa using hc, h⟩
  · rintro (⟨rest, rfl, h⟩ | ⟨i, rest, c, rfl, hc, h⟩)
    · exact ⟨0, rest, a, rfl, rfl, h⟩
    · rw [Nat.add_right_comm, Nat.add_assoc] at h ⊢
      exact ⟨i + 1, rest, c, rfl, by simpa using hc, h⟩

/-- What the first item holds comes before everything that later items hold. -/
theorem Lists.cons {a : γ} {items : List γ} {xs ys : List α} (hhead : Lists (R first a) xs)
    (htail : Lists (AtItem R (first + 1) items) ys) :
    Lists (AtItem R first (a :: items)) (xs ++ ys) := by
  obtain ⟨heads, hheads, rfl⟩ := hhead
  obtain ⟨tails, htails, rfl⟩ := htail
  refine ⟨heads.map (fun e => (first :: e.1, e.2)) ++ tails, ⟨?_, fun path x => ?_⟩, by simp⟩
  · refine List.pairwise_append.2 ⟨?_, htails.sorted, ?_⟩
    · exact List.pairwise_map.2 (hheads.sorted.imp List.cons_lt_cons_self.2)
    · rintro e he ⟨path, x⟩ hx
      obtain ⟨e, -, rfl⟩ := List.mem_map.1 he
      obtain ⟨i, rest, c, rfl, -, -⟩ := (htails.mem_iff path x).1 hx
      exact List.cons_lt_cons_iff.2 (.inl (by omega))
  · rw [atItem_cons, List.mem_append, htails.mem_iff]
    refine or_congr_left ?_
    simp only [List.mem_map, Prod.mk.injEq, Prod.exists]
    constructor
    · rintro ⟨rest, y, hy, rfl, rfl⟩
      exact ⟨rest, rfl, (hheads.mem_iff rest y).1 hy⟩
    · rintro ⟨rest, rfl, h⟩
      exact ⟨rest, x, (hheads.mem_iff rest x).2 h, rfl, rfl⟩

end Lists

/-! ## What a block holds -/

/-- What an element of a paragraph that starts at `start` holds, with nothing below it. -/
def ElementHolds (start : Json) (cell : Option CellPosition) (j : Json) (path : List Nat)
    (x : Passage) : Prop :=
  path = [] ∧ j.passage? start cell = some x

/-- What blocks inside `cell` hold. -/
def BlocksHold (cell : Option CellPosition) (js : List Json) : List Nat → Passage → Prop :=
  AtItem (fun _ j => Holds j cell) 0 js

/-- What a cell of a row holds. -/
def CellHolds (table : Json) (row column : Nat) (j : Json) : List Nat → Passage → Prop :=
  BlocksHold (some ⟨table, row, column⟩) (j.itemsAt "content")

/-- What a row of a table holds. -/
def RowHolds (table : Json) (row : Nat) (j : Json) : List Nat → Passage → Prop :=
  AtItem (CellHolds table row) 0 (j.itemsAt "tableCells")

section Holds

variable {j q : Json} {cell : Option CellPosition} {path : List Nat} {x : Passage}

theorem holds_paragraph_iff (hq : j.get? "paragraph" = some q) : Holds j cell path x ↔
    AtItem (fun _ => ElementHolds (j.startOr (.int 0)) cell) 0 (q.itemsAt "elements") path x := by
  constructor
  · rintro (⟨hq', he, hx⟩ | ⟨hnone, -⟩ | ⟨hnone, -⟩)
    · obtain rfl : q = _ := Option.some.inj (hq.symm.trans hq')
      exact ⟨_, [], _, by rw [Nat.zero_add], he, rfl, hx⟩
    · exact absurd (hq.symm.trans hnone) (by simp)
    · exact absurd (hq.symm.trans hnone) (by simp)
  · rintro ⟨k, rest, e, rfl, he, rfl, hx⟩
    rw [Nat.zero_add]
    exact .run hq he hx

theorem holds_table_iff (hparagraph : j.get? "paragraph" = none) (hq : j.get? "table" = some q) :
    Holds j cell path x ↔
      AtItem (RowHolds (j.startOr (.int 0))) 0 (q.itemsAt "tableRows") path x := by
  constructor
  · rintro (⟨hq', -⟩ | ⟨-, hq', hrow, hcell, hinner, hx⟩ | ⟨-, hnone, -⟩)
    · exact absurd (hparagraph.symm.trans hq') (by simp)
    · obtain rfl : q = _ := Option.some.inj (hq.symm.trans hq')
      refine ⟨_, _, _, by rw [Nat.zero_add], hrow, ?_⟩
      refine ⟨_, _, _, by rw [Nat.zero_add], hcell, ?_⟩
      refine ⟨_, _, _, by rw [Nat.zero_add], hinner, ?_⟩
      simpa only [Nat.zero_add] using hx
    · exact absurd (hq.symm.trans hnone) (by simp)
  · rintro ⟨r, _, row, rfl, hrow, k, _, c, rfl, hcell, i, rest, inner, rfl, hinner, hx⟩
    simp only [Nat.zero_add] at hx ⊢
    exact .cell hparagraph hq hrow hcell hinner hx

theorem not_holds_sectionBreak (hparagraph : j.get? "paragraph" = none)
    (htable : j.get? "table" = none) (hbreak : j.get? "sectionBreak" ≠ none) :
    ¬ Holds j cell path x := by
  rintro (⟨hq, -⟩ | ⟨-, hq, -⟩ | ⟨-, -, hnone, -⟩)
  · exact absurd (hparagraph.symm.trans hq) (by simp)
  · exact absurd (htable.symm.trans hq) (by simp)
  · exact hbreak hnone

theorem holds_contents_iff (hparagraph : j.get? "paragraph" = none)
    (htable : j.get? "table" = none) (hbreak : j.get? "sectionBreak" = none)
    (hq : j.get? "tableOfContents" = some q) :
    Holds j cell path x ↔ BlocksHold cell (q.itemsAt "content") path x := by
  constructor
  · rintro (⟨hq', -⟩ | ⟨-, hq', -⟩ | ⟨-, -, -, hq', hinner, hx⟩)
    · exact absurd (hparagraph.symm.trans hq') (by simp)
    · exact absurd (htable.symm.trans hq') (by simp)
    · obtain rfl : q = _ := Option.some.inj (hq.symm.trans hq')
      exact ⟨_, _, _, by rw [Nat.zero_add], hinner, hx⟩
  · rintro ⟨i, rest, inner, rfl, hinner, hx⟩
    rw [Nat.zero_add]
    exact .contents hparagraph htable hbreak hq hinner hx

end Holds

/-! ## The runs of a block are what it holds -/

/-- The passage that a located run is. -/
def LocatedRun.passage (r : LocatedRun) : Passage :=
  ⟨r.run.start, r.run.content, r.cell⟩

/-- The passages that an element of a paragraph inside `cell` adds. -/
def ParagraphElement.passages (cell : Option CellPosition) : ParagraphElement → List Passage
  | .run r => [LocatedRun.passage ⟨r, cell⟩]
  | .inline _ => []

theorem map_passage_runs (cell : Option CellPosition) (p : Paragraph) :
    (p.runs.map fun r => (⟨r, cell⟩ : LocatedRun)).map LocatedRun.passage =
      p.elements.flatMap (·.passages cell) := by
  unfold Paragraph.runs
  induction p.elements with
  | nil => rfl
  | cons e rest ih =>
    cases e with
    | run r => exact congrArg (LocatedRun.passage ⟨r, cell⟩ :: ·) ih
    | inline e => exact ih

theorem lists_element {start j : Json} (cell : Option CellPosition) {e : ParagraphElement}
    (h : ReadsElement start j e) : Lists (ElementHolds start cell j) (e.passages cell) := by
  cases h with
  | run hrun hcontent hfirst =>
    refine lists_singleton fun path x => and_congr_right fun _ => ?_
    simp [Json.passage?, hrun, hcontent, hfirst, Json.string?, LocatedRun.passage, eq_comm]
  | inline hrun =>
    refine lists_nil fun path x hx => ?_
    simp [ElementHolds, Json.passage?, hrun] at hx

theorem lists_elements {start : Json} (cell : Option CellPosition) {first : Nat} {js : List Json}
    {elements : List ParagraphElement} (h : List.Forall₂ (ReadsElement start) js elements) :
    Lists (AtItem (fun _ => ElementHolds start cell) first js)
      (elements.flatMap (·.passages cell)) := by
  induction h generalizing first with
  | nil => exact lists_nil fun _ _ => atItem_nil
  | cons hhead _ ih => exact (lists_element cell hhead).cons ih

-- The recursion is on the tree that was read. What its nodes were read off is taken apart beside
-- it, one level at a time, so the positions of blocks, rows and cells count along with the lists.
mutual

/-- The runs of a block are what the value holds that it was read off, in reading order. -/
theorem lists_block {j : Json} (cell : Option CellPosition) : ∀ {b : Block}, readBlock j = .ok b →
    Lists (Holds j cell) ((b.runs cell).map LocatedRun.passage)
  | .paragraph p, h => by
    cases readsBlock_of_readBlock h with
    | paragraph hq hp =>
      rw [Block.runs, map_passage_runs]
      exact (lists_elements cell (readsElements_of_readParagraph hp)).congr
        fun _ _ => (holds_paragraph_iff hq).symm
  | .table ⟨start, stop, rows⟩, h => by
    cases readsBlock_of_readBlock h with
    | table hparagraph hq hrows =>
      rw [Block.runs, Table.runs]
      exact (lists_rows (forall₂_of_readRows hrows)).congr
        fun _ _ => (holds_table_iff hparagraph hq).symm
  | .sectionBreak start stop, h => by
    cases readsBlock_of_readBlock h with
    | sectionBreak hparagraph htable hbreak =>
      exact lists_nil fun _ _ => not_holds_sectionBreak hparagraph htable hbreak
  | .contents start stop content, h => by
    cases readsBlock_of_readBlock h with
    | contents hparagraph htable hbreak hq hcontent =>
      rw [Block.runs]
      exact (lists_blocks cell (forall₂_of_readBlocks hcontent)).congr
        fun _ _ => (holds_contents_iff hparagraph htable hbreak hq).symm

theorem lists_rows {table : Json} {row : Nat} : ∀ {js : List Json} {rows : List Row},
    List.Forall₂ (fun j (r : Row) =>
      ∃ first, readCells first (j.itemsAt "tableCells") = .ok r.cells) js rows →
    Lists (AtItem (RowHolds table) row js) ((runsOfRows table row rows).map LocatedRun.passage)
  | _, [], .nil => lists_nil fun _ _ => atItem_nil
  | _, ⟨_, _, cells⟩ :: rest, .cons ⟨_, hcells⟩ hrest => by
    have hhead : Lists (RowHolds table row _) _ := lists_cells (forall₂_of_readCells hcells)
    rw [runsOfRows, List.map_append]
    exact hhead.cons (lists_rows hrest)

theorem lists_cells {table : Json} {row column : Nat} : ∀ {js : List Json} {cells : List Cell},
    List.Forall₂ (fun j (c : Cell) => readBlocks (j.itemsAt "content") = .ok c.content) js cells →
    Lists (AtItem (CellHolds table row) column js)
      ((runsOfCells table row column cells).map LocatedRun.passage)
  | _, [], .nil => lists_nil fun _ _ => atItem_nil
  | _, ⟨_, _, content, _, _⟩ :: rest, .cons hcontent hrest => by
    have hhead : Lists (CellHolds table row column _) _ :=
      lists_blocks _ (forall₂_of_readBlocks hcontent)
    rw [runsOfCells, List.map_append]
    exact hhead.cons (lists_cells hrest)

theorem lists_blocks (cell : Option CellPosition) {first : Nat} : ∀ {js : List Json}
    {blocks : List Block}, List.Forall₂ (fun j b => readBlock j = .ok b) js blocks →
    Lists (AtItem (fun _ j => Holds j cell) first js)
      ((runsOfBlocks cell blocks).map LocatedRun.passage)
  | _, [], .nil => lists_nil fun _ _ => atItem_nil
  | _, block :: rest, .cons hblock hrest => by
    rw [runsOfBlocks, List.map_append]
    exact (lists_block cell hblock).cons (lists_blocks cell hrest)

end

/-! ## The linear text of a document -/

theorem originsFrom_eq (runStart : Number) (cell : Option CellPosition) (index : Int) (t : Text) :
    originsFrom runStart cell index t =
      (List.range t.length).map fun k => ⟨index + Text.units (t.take k), runStart, cell⟩ := by
  induction t generalizing index with
  | nil => rfl
  | cons c t ih =>
    rw [originsFrom, ih, List.length_cons, List.range_succ_eq_map, List.map_cons, List.map_map]
    refine congrArg₂ List.cons (by simp) (List.map_congr_left fun k _ => ?_)
    simp [Int.add_assoc]

theorem origins_passage (r : LocatedRun) : r.passage.origins = r.origins :=
  (originsFrom_eq _ _ _ _).symm

theorem exists_fieldD_eq_ok {j v default : Json} {key : String} (h : j.fieldD key default = .ok v)
    (key' : String) (default' : Json) : ∃ v', j.fieldD key' default' = .ok v' := by
  cases j with
  | obj fields => exact ⟨_, rfl⟩
  | _ => exact absurd h (by simp [Json.fieldD, Json.field?, Except.map])

/-- A document that is read has fields: either it is the body itself, or it is asked for its
tabs. -/
theorem exists_fieldD_of_readBody {document tabId : Json} {b : Body}
    (h : readBody document tabId = .ok b) (key : String) (default : Json) :
    ∃ v, document.fieldD key default = .ok v := by
  simp only [readBody, bind_eq_ok_iff, liftM_fault_eq_ok_iff] at h
  obtain ⟨body, hbody, items, hitems, -⟩ := h
  obtain ⟨hasContent, -, hbody⟩ := bind_eq_ok_iff.1 hbody
  obtain ⟨hasBody, -, hbody⟩ := bind_eq_ok_iff.1 hbody
  split at hbody
  · obtain rfl := pure_eq_ok_iff.1 hbody
    obtain ⟨v, hv, -⟩ := bind_eq_ok_iff.1 hitems
    exact exists_fieldD_eq_ok hv key default
  · obtain ⟨tabs, htabs, -⟩ := bind_eq_ok_iff.1 hbody
    exact exists_fieldD_eq_ok htabs key default

/-- The text of a document that can be read is the text of its body. -/
theorem exists_linearOfDocument {document : Json} (revision : Json) {b : Body}
    (h : readBody document .null = .ok b) :
    ∃ own, linearOfDocument document revision = .ok (b.linear own) := by
  obtain ⟨own, hown⟩ := exists_fieldD_of_readBody h "revisionId" .null
  unfold linearOfDocument
  cases revision with
  | null => exact ⟨own, bind_eq_ok_iff.2 ⟨own, liftM_fault_eq_ok_iff.2 hown, by rw [h]; rfl⟩⟩
  | _ => exact ⟨_, by rw [h]; rfl⟩

/-- **The linear text of a document is complete, in reading order and traced.** If a document can be
read, its text is made of the runs at all paths of its body, each once and in the order of the
paths, and so are the origins, one for each character. -/
theorem linearOfDocument_traced {document : Json} (revision : Json) {b : Body}
    (h : readBody document .null = .ok b) :
    ∃ body own passages, selectBody document .null = .ok body ∧
      linearOfDocument document revision = .ok (b.linear own) ∧
      Enumerates (HoldsAt body) passages ∧
      (b.linear own).text = passages.flatMap (·.2.content) ∧
      (b.linear own).origins = passages.flatMap (·.2.origins) := by
  obtain ⟨own, hlinear⟩ := exists_linearOfDocument revision h
  simp only [readBody, bind_eq_ok_iff, liftM_fault_eq_ok_iff, pure_eq_ok_iff] at h
  obtain ⟨body, hbody, items, hitems, blocks, hblocks, rfl⟩ := h
  obtain rfl := Json.recordsAt_eq_ok hitems
  have hlists : Lists (BlocksHold none (body.itemsAt "content")) _ :=
    lists_blocks none (forall₂_of_readBlocks hblocks)
  obtain ⟨passages, hpassages, hmap⟩ : Lists (HoldsAt body) _ :=
    hlists.congr fun path x => by simp only [BlocksHold, AtItem, HoldsAt, Nat.zero_add]
  refine ⟨body, own, passages, hbody, hlinear, hpassages, ?_, ?_⟩
  · rw [← List.flatMap_map Prod.snd, hmap, List.flatMap_map]
    rfl
  · rw [← List.flatMap_map Prod.snd, hmap, List.flatMap_map]
    exact List.flatMap_congr fun r _ => (origins_passage r).symm

/-- A document with an inline element between two runs of text, a table in a cell of a table, and a
table of contents. -/
def nestedDocument : Json :=
  let run (start : Int) (s : String) : Json :=
    .obj [("startIndex", .int start), ("textRun", .obj [("content", .str s)])]
  let line (elements : List Json) : Json :=
    .obj [("paragraph", .obj [("elements", .arr elements)])]
  let table (start : Int) (content : List Json) : Json :=
    .obj [("startIndex", .int start), ("table", .obj [("tableRows", .arr [
      .obj [("tableCells", .arr [.obj [("content", .arr content)]])]])])]
  .obj [("content", .arr [
    line [run 1 "😀a", .obj [("startIndex", .int 4), ("pageBreak", .obj [])], run 5 "b\n"],
    table 7 [table 10 [line [run 13 "c\n"]], line [run 16 "d\n"]],
    .obj [("tableOfContents", .obj [("content", .arr [line [run 19 "e\n"]])])]])]

theorem linearOfDocument_traced_nested : ∃ b body own passages,
    readBody nestedDocument .null = .ok b ∧ selectBody nestedDocument .null = .ok body ∧
      linearOfDocument nestedDocument .null = .ok (b.linear own) ∧
      Enumerates (HoldsAt body) passages ∧
      (b.linear own).text = passages.flatMap (·.2.content) ∧
      (b.linear own).origins = passages.flatMap (·.2.origins) ∧
      (b.linear own).text = ['😀', 'a', 'b', '\n', 'c', '\n', 'd', '\n', 'e', '\n'] := by
  have hread : (fun b : Body => b.runs.flatMap (·.run.content)) <$> readBody nestedDocument .null =
      .ok ['😀', 'a', 'b', '\n', 'c', '\n', 'd', '\n', 'e', '\n'] := by
    cbv
  obtain ⟨b, hb, htext⟩ := map_eq_ok_iff.1 hread
  obtain ⟨body, own, passages, hbody, hlinear, hpassages, hcontent, horigins⟩ :=
    linearOfDocument_traced .null hb
  exact ⟨b, body, own, passages, hb, hbody, hlinear, hpassages, hcontent, horigins, htext⟩

end DocTemplate
