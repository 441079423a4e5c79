import DocTemplate.Section.Layout

/-!
# What the layout of a section keeps

The layout of a section has a row for every pair and one for the title if there is one; its cells
follow each other row by row and stand inside the table. From the layout and what is put in front of
the values the section can be read back, with its pairs in the order in which they were given
(`layout_lossless`), so sections of texts that differ have layouts that differ.

The inductions are along the pairs, with the row of the first pair generalized: it is 0 or 1,
according to whether there is a title.
-/

namespace DocTemplate

/-! ## Places of cells -/

/-- The cell stands in this row, from this column on, and spans so many columns. -/
def CellPlan.StandsAt (c : CellPlan) (row column span : Int) : Prop :=
  c.row = .int row ∧ c.column = .int column ∧ c.columnSpan = .int span

/-- The cell stands above the other one, or in one row with it and to the left of it. -/
def CellPlan.Precedes (c d : CellPlan) : Prop :=
  ∃ row column span row' column' span', c.StandsAt row column span ∧
    d.StandsAt row' column' span' ∧ (row < row' ∨ row = row' ∧ column < column')

/-- The cell lies inside a table of this many rows and two columns. -/
def CellPlan.LiesIn (c : CellPlan) (rows : Int) : Prop :=
  ∃ row column span, c.StandsAt row column span ∧ (0 ≤ row ∧ row < rows) ∧ 0 ≤ column ∧ 0 < span ∧
    column + span ≤ 2

/-- How many rows a section needs: one for every pair, and one for a title that is given. -/
def Section.rows (s : Section) : Int :=
  s.pairs.length + if s.title.isGiven then 1 else 0

/-- A layout has the rows that a section needs, a title cell over both columns if and only if the
section has a title, and cells in order inside the table. -/
structure TableLayout.Fits (l : TableLayout) (s : Section) : Prop where
  rowCount : l.rowCount = .int s.rows
  columnCount : l.columnCount = .int 2
  hasTitleRow : l.hasTitleRow = .ok s.title.isGiven
  titleCell : s.title.isGiven → ∃ c rest, l.cells = c :: rest ∧ c.StandsAt 0 0 2
  inside : ∀ c ∈ l.cells, c.LiesIn s.rows
  ordered : l.cells.Pairwise CellPlan.Precedes

section Pairs

variable {style : LayoutStyle} {row : Int} {pairs : List KeyValue}

theorem standsAt_of_mem_pairCells {c : CellPlan} (h : c ∈ pairCells style row pairs) :
    ∃ r column, c.StandsAt r column 1 ∧ (row ≤ r ∧ r < row + pairs.length) ∧ 0 ≤ column ∧
      column < 2 := by
  induction pairs generalizing row with
  | nil => exact absurd h List.not_mem_nil
  | cons p rest ih =>
    rw [List.length_cons]
    rw [pairCells, List.mem_cons, List.mem_cons] at h
    rcases h with rfl | rfl | h
    · exact ⟨row, 0, ⟨rfl, rfl, rfl⟩, by omega, by omega, by omega⟩
    · exact ⟨row, 1, ⟨rfl, rfl, rfl⟩, by omega, by omega, by omega⟩
    · obtain ⟨r, column, hc, hr, hcolumn⟩ := ih h
      exact ⟨r, column, hc, by omega, hcolumn⟩

theorem pairwise_pairCells (style : LayoutStyle) (row : Int) (pairs : List KeyValue) :
    (pairCells style row pairs).Pairwise CellPlan.Precedes := by
  induction pairs generalizing row with
  | nil => exact .nil
  | cons p rest ih =>
    have hbelow : ∀ c : CellPlan, ∀ column, c.StandsAt row column 1 →
        ∀ d ∈ pairCells style (row + 1) rest, c.Precedes d := by
      intro c column hc d hd
      obtain ⟨r, column', hd, hr, -⟩ := standsAt_of_mem_pairCells hd
      exact ⟨_, _, _, _, _, _, hc, hd, .inl (by omega)⟩
    rw [pairCells, List.pairwise_cons, List.pairwise_cons, List.forall_mem_cons]
    refine ⟨⟨?_, hbelow _ 0 ⟨rfl, rfl, rfl⟩⟩, hbelow _ 1 ⟨rfl, rfl, rfl⟩, ih (row + 1)⟩
    exact ⟨row, 0, 1, row, 1, 1, ⟨rfl, rfl, rfl⟩, ⟨rfl, rfl, rfl⟩, .inr ⟨rfl, by decide⟩⟩

theorem spansFirstRow_pairCells (style : LayoutStyle) (row : Int) (pairs : List KeyValue) :
    spansFirstRow (pairCells style row pairs) = .ok false := by
  induction pairs generalizing row with
  | nil => rfl
  | cons p rest ih =>
    rw [pairCells, spansFirstRow, spansFirstRow, ih]
    split <;> rfl

end Pairs

theorem liesIn_of_mem_pairCells {style : LayoutStyle} {row rows : Int} {pairs : List KeyValue}
    (hrow : 0 ≤ row) (hrows : row + pairs.length = rows) {c : CellPlan}
    (h : c ∈ pairCells style row pairs) : c.LiesIn rows := by
  obtain ⟨r, column, hc, hr, hcolumn⟩ := standsAt_of_mem_pairCells h
  exact ⟨r, column, 1, hc, by omega, by omega, by omega, by omega⟩

/-- The cell of the title of a section. -/
def Section.titleCell (s : Section) (style : LayoutStyle) : CellPlan :=
  { row := .int 0, column := .int 0, text := s.title, bold := .bool true
    fontSize := style.titleFontSize, columnSpan := .int 2, alignment := .str "CENTER" }

theorem standsAt_titleCell (s : Section) (style : LayoutStyle) :
    (s.titleCell style).StandsAt 0 0 2 :=
  ⟨rfl, rfl, rfl⟩

theorem layout_of_title {s : Section} (h : s.title.isGiven = true) (style : LayoutStyle) :
    s.layout style =
      ⟨.int (s.pairs.length + 1), .int 2, s.titleCell style :: pairCells style 1 s.pairs,
        [.int 200, .int 300]⟩ := by
  rw [Section.layout, if_pos h]
  rfl

theorem layout_of_no_title {s : Section} (h : s.title.isGiven = false) (style : LayoutStyle) :
    s.layout style =
      ⟨.int s.pairs.length, .int 2, pairCells style 0 s.pairs, [.int 200, .int 300]⟩ := by
  rw [Section.layout, if_neg (by rw [h]; exact Bool.false_ne_true)]

theorem fits_layout (s : Section) (style : LayoutStyle) : (s.layout style).Fits s := by
  cases htitle : s.title.isGiven with
  | true =>
    have hrows : s.rows = s.pairs.length + 1 := by rw [Section.rows, if_pos htitle]
    rw [layout_of_title htitle]
    exact {
      rowCount := by rw [hrows]
      columnCount := rfl
      hasTitleRow := by rw [htitle]; rfl
      titleCell := fun _ => ⟨_, _, rfl, standsAt_titleCell s style⟩
      inside := List.forall_mem_cons.2
        ⟨⟨0, 0, 2, standsAt_titleCell s style, by omega, by decide⟩,
          fun c hc => liesIn_of_mem_pairCells (by decide) (by omega) hc⟩
      ordered := List.pairwise_cons.2 ⟨fun c hc => by
        obtain ⟨r, column, hc, hr, -⟩ := standsAt_of_mem_pairCells hc
        exact ⟨0, 0, 2, r, column, 1, standsAt_titleCell s style, hc, .inl (by omega)⟩,
          pairwise_pairCells style 1 s.pairs⟩ }
  | false =>
    have hrows : s.rows = s.pairs.length := by
      rw [Section.rows, htitle]
      exact Int.add_zero _
    rw [layout_of_no_title htitle]
    exact {
      rowCount := by rw [hrows]
      columnCount := rfl
      hasTitleRow := by rw [htitle]; exact spansFirstRow_pairCells style 0 s.pairs
      titleCell := fun h => absurd (htitle.symm.trans h) Bool.false_ne_true
      inside := fun c hc => liesIn_of_mem_pairCells (by decide) (by omega) hc
      ordered := pairwise_pairCells style 0 s.pairs }

/-! ## Reading a layout back -/

/-- The pairs that cells were laid out for, two cells each, with `lead` in front of every value. -/
def pairsOf (lead : Text) : List CellPlan → List KeyValue
  | key :: value :: rest =>
    ⟨key.text, .text (value.text.shown.drop lead.length)⟩ :: pairsOf lead rest
  | _ => []

/-- The section that a layout was made for, with `lead` in front of every value. -/
def TableLayout.sectionFor (l : TableLayout) (lead : Text) : Section :=
  match l.hasTitleRow, l.cells with
  | .ok true, title :: rest => ⟨title.text, pairsOf lead rest⟩
  | _, cells => ⟨.text [], pairsOf lead cells⟩

/-- A section as its table shows it: without a title that does not count as given, and with texts
for values. -/
def Section.asShown (s : Section) : Section :=
  ⟨s.title.orEmpty, s.pairs.map fun p => ⟨p.key, .text p.value.shown⟩⟩

theorem pairsOf_pairCells (style : LayoutStyle) (row : Int) (pairs : List KeyValue) :
    pairsOf style.valueLead (pairCells style row pairs) =
      pairs.map fun p => ⟨p.key, .text p.value.shown⟩ := by
  induction pairs generalizing row with
  | nil => rfl
  | cons p rest ih =>
    rw [pairCells, pairsOf, ih, Entry.shown_text, List.drop_left, List.map_cons]

theorem sectionFor_layout (s : Section) (style : LayoutStyle) :
    (s.layout style).sectionFor style.valueLead = s.asShown := by
  have hfits := fits_layout s style
  rw [TableLayout.sectionFor, hfits.hasTitleRow, Section.asShown, Entry.orEmpty]
  cases htitle : s.title.isGiven with
  | true =>
    rw [layout_of_title htitle, if_pos rfl]
    exact congrArg (Section.mk s.title) (pairsOf_pairCells style 1 s.pairs)
  | false =>
    rw [layout_of_no_title htitle, if_neg Bool.false_ne_true]
    exact congrArg (Section.mk (.text [])) (pairsOf_pairCells style 0 s.pairs)

/-- A section of texts is shown as it is. -/
theorem Section.Typed.asShown_eq {s : Section} (h : s.Typed) : s.asShown = s := by
  obtain ⟨title, pairs⟩ := s
  obtain ⟨⟨t, rfl⟩, hpairs⟩ := h
  have htitle : (Entry.text t).orEmpty = .text t := by
    cases t <;> rfl
  have hshown : ∀ p ∈ pairs, (⟨p.key, .text p.value.shown⟩ : KeyValue) = p := by
    rintro ⟨key, value⟩ hp
    obtain ⟨-, v, rfl⟩ := hpairs _ hp
    rfl
  rw [Section.asShown, htitle, List.map_congr_left hshown, List.map_id']

/-- **The layout of a section is lossless and in bounds**: its cells follow each other inside a
table that has a row for each pair and for a title, and the section can be read back from it. So
sections of texts that differ never have the same layout, whatever the sizes of type are. -/
theorem layout_lossless (s : Section) (style : LayoutStyle) :
    (s.layout style).Fits s ∧
      (s.layout style).sectionFor style.valueLead = s.asShown ∧
      (s.Typed → (s.layout style).sectionFor style.valueLead = s ∧
        ∀ s' style', s'.Typed → style'.valueLead = style.valueLead →
          s'.layout style' = s.layout style → s' = s) := by
  refine ⟨fits_layout s style, sectionFor_layout s style, fun h => ⟨?_, ?_⟩⟩
  · rw [sectionFor_layout, h.asShown_eq]
  · intro s' style' h' hlead hlayout
    calc s' = s'.asShown := h'.asShown_eq.symm
      _ = (s'.layout style').sectionFor style'.valueLead := (sectionFor_layout s' style').symm
      _ = (s.layout style).sectionFor style.valueLead := by rw [hlayout, hlead]
      _ = s.asShown := sectionFor_layout s style
      _ = s := h.asShown_eq

/-- A section with a key that stands there twice, an empty key, and values that are empty and blank.
-/
def repeatedKey : Section :=
  ⟨.text ['T'],
    [⟨.text ['k'], .text []⟩, ⟨.text ['k'], .text [' ']⟩, ⟨.text [], .text ['k']⟩]⟩

/-- The same section with the first two pairs exchanged. -/
def exchangedPairs : Section :=
  ⟨.text ['T'],
    [⟨.text ['k'], .text [' ']⟩, ⟨.text ['k'], .text []⟩, ⟨.text [], .text ['k']⟩]⟩

theorem layout_lossless_repeatedKey :
    repeatedKey.Typed ∧ exchangedPairs.Typed ∧
      (repeatedKey.layout { valueLead := [':', ' '] }).sectionFor [':', ' '] = repeatedKey ∧
      exchangedPairs.layout { valueLead := [':', ' '] } ≠
        repeatedKey.layout { valueLead := [':', ' '] } := by
  have htyped : repeatedKey.Typed := ⟨⟨_, rfl⟩, by simp [repeatedKey]⟩
  have hexchanged : exchangedPairs.Typed := ⟨⟨_, rfl⟩, by simp [exchangedPairs]⟩
  obtain ⟨hread, hinjective⟩ :=
    (layout_lossless repeatedKey { valueLead := [':', ' '] }).2.2 htyped
  refine ⟨htyped, hexchanged, hread, fun hlayout => ?_⟩
  exact absurd (hinjective exchangedPairs _ hexchanged rfl hlayout) (by
    simp [exchangedPairs, repeatedKey])

end DocTemplate
