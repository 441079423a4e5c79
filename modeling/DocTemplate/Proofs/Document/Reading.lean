import DocTemplate.Document.Reader
import DocTemplate.Proofs.Failure

/-!
# What a document is read from

The steps of reading a document, taken apart: from a block that was read to the fields of the value
that it was read from (`readsBlock_of_readBlock`), and the same for elements of paragraphs, rows and
cells. A list of values is read item by item.
-/

namespace DocTemplate

/-! ## Fields -/

namespace Json

/-- Where an element starts: at the index that it reports, or else where the part around it does. -/
def startOr (j start : Json) : Json :=
  (j.get? "startIndex").getD start

/-- The items of an array. Any other value has none. -/
def items : Json → List Json
  | .arr items => items
  | _ => []

/-- The items of the array that a field holds, if it does. -/
def itemsAt (j : Json) (key : String) : List Json :=
  ((j.get? key).map items).getD []

theorem fieldD_eq_ok {j v default : Json} {key : String} (h : j.fieldD key default = .ok v) :
    v = (j.get? key).getD default := by
  cases j with
  | obj fields => exact (Except.ok.inj h).symm
  | _ => exact absurd h (by simp [fieldD, field?, Except.map])

theorem records_eq_ok {j : Json} {items : List Json} (h : j.records = .ok items) :
    items = j.items := by
  cases j with
  | arr items => exact (Except.ok.inj h).symm
  | str s =>
    simp only [records] at h
    split at h
    · exact (Except.ok.inj h).symm
    · exact absurd h (by simp)
  | obj fields =>
    simp only [records] at h
    split at h
    · exact (Except.ok.inj h).symm
    · exact absurd h (by simp)
  | _ => exact absurd h (by simp [records])

theorem recordsAt_eq_ok {j : Json} {key : String} {items : List Json}
    (h : j.recordsAt key = .ok items) : items = j.itemsAt key := by
  obtain ⟨v, hv, hrecords⟩ := bind_eq_ok_iff.1 h
  obtain rfl := fieldD_eq_ok hv
  rw [records_eq_ok hrecords, itemsAt]
  cases j.get? key with
  | none => rfl
  | some v => rfl

end Json

/-! ## Elements of paragraphs -/

/-- How an element of a paragraph that starts at `start` is read off a value. -/
inductive ReadsElement (start j : Json) : ParagraphElement → Prop
  | run {run stop style : Json} {first : Number} {s : String} :
      j.get? "textRun" = some run → (run.get? "content").getD (.str "") = .str s →
      (j.startOr start).number? = some first →
      ReadsElement start j (.run ⟨first, stop, s.toList, style⟩)
  | inline {e : InlineElement} : j.get? "textRun" = none → ReadsElement start j (.inline e)

theorem number?_of_summand {j : Json} {n : Number} (h : j.summand = .ok n) :
    j.number? = some n := by
  unfold Json.summand at h
  split at h
  · next hn => rwa [Except.ok.inj h] at hn
  · split at h <;> exact absurd h (by simp)

theorem readsElement_of_readParagraphElement {start j : Json} {e : ParagraphElement}
    (h : readParagraphElement start j = .ok e) : ReadsElement start j e := by
  simp only [readParagraphElement, bind_eq_ok_iff, liftM_fault_eq_ok_iff] at h
  obtain ⟨first, hfirst, last, -, h⟩ := h
  obtain rfl := Json.fieldD_eq_ok hfirst
  split at h
  · next run hrun =>
    simp only [bind_eq_ok_iff, liftM_fault_eq_ok_iff] at h
    obtain ⟨content, hcontent, h⟩ := h
    split at h
    · next s =>
      simp only [bind_eq_ok_iff, liftM_fault_eq_ok_iff, pure_eq_ok_iff] at h
      obtain ⟨first, hfirst, last, -, style, -, rfl⟩ := h
      exact .run hrun (Json.fieldD_eq_ok hcontent).symm (number?_of_summand hfirst)
    · exact absurd h throw_ne_ok
  · next hrun =>
    split at h
    · obtain rfl := pure_eq_ok_iff.1 h
      exact .inline hrun
    · exact absurd h throw_ne_ok

theorem readsElements_of_readParagraph {j start stop : Json} {p : Paragraph}
    (h : readParagraph j start stop = .ok p) :
    List.Forall₂ (ReadsElement start) (j.itemsAt "elements") p.elements := by
  simp only [readParagraph, bind_eq_ok_iff, liftM_fault_eq_ok_iff, pure_eq_ok_iff] at h
  obtain ⟨items, hitems, elements, helements, style, -, name, -, rfl⟩ := h
  rw [← Json.recordsAt_eq_ok hitems]
  exact (forall₂_of_mapM helements).imp fun _ _ => readsElement_of_readParagraphElement

/-! ## Blocks -/

/-- How a block is read off a value: by the first of four fields that the value has. -/
inductive ReadsBlock (j : Json) : Block → Prop
  | paragraph {q stop : Json} {p : Paragraph} :
      j.get? "paragraph" = some q → readParagraph q (j.startOr (.int 0)) stop = .ok p →
      ReadsBlock j (.paragraph p)
  | table {q stop : Json} {rows : List Row} :
      j.get? "paragraph" = none → j.get? "table" = some q →
      readRows (j.startOr (.int 0)) (q.itemsAt "tableRows") = .ok rows →
      ReadsBlock j (.table ⟨j.startOr (.int 0), stop, rows⟩)
  | sectionBreak {start stop : Json} :
      j.get? "paragraph" = none → j.get? "table" = none → j.get? "sectionBreak" ≠ none →
      ReadsBlock j (.sectionBreak start stop)
  | contents {q start stop : Json} {content : List Block} :
      j.get? "paragraph" = none → j.get? "table" = none → j.get? "sectionBreak" = none →
      j.get? "tableOfContents" = some q → readBlocks (q.itemsAt "content") = .ok content →
      ReadsBlock j (.contents start stop content)

theorem readsBlock_of_readBlock {j : Json} {b : Block} (h : readBlock j = .ok b) :
    ReadsBlock j b := by
  simp only [readBlock, bind_eq_ok_iff, liftM_fault_eq_ok_iff] at h
  obtain ⟨first, hfirst, last, -, h⟩ := h
  obtain rfl := Json.fieldD_eq_ok hfirst
  split at h
  · next q hq =>
    simp only [bind_eq_ok_iff, pure_eq_ok_iff] at h
    obtain ⟨p, hp, rfl⟩ := h
    exact .paragraph hq hp
  · next hparagraph =>
    split at h
    · next q hq =>
      split at h
      · exact absurd h throw_ne_ok
      · next items hitems =>
        simp only [bind_eq_ok_iff, pure_eq_ok_iff] at h
        obtain ⟨rows, hrows, rfl⟩ := h
        rw [Json.recordsAt_eq_ok hitems] at hrows
        exact .table hparagraph hq hrows
    · next htable =>
      split at h
      · next hbreak =>
        obtain rfl := pure_eq_ok_iff.1 h
        exact .sectionBreak hparagraph htable (Option.isSome_iff_ne_none.1 hbreak)
      · next hbreak =>
        split at h
        · next q hq =>
          split at h
          · exact absurd h throw_ne_ok
          · next items hitems =>
            simp only [bind_eq_ok_iff, pure_eq_ok_iff] at h
            obtain ⟨content, hcontent, rfl⟩ := h
            rw [Json.recordsAt_eq_ok hitems] at hcontent
            exact .contents hparagraph htable (by simpa using hbreak) hq hcontent
        · exact absurd h throw_ne_ok

theorem forall₂_of_readBlocks {js : List Json} {blocks : List Block}
    (h : readBlocks js = .ok blocks) : List.Forall₂ (fun j b => readBlock j = .ok b) js blocks := by
  induction js generalizing blocks with
  | nil =>
    rw [readBlocks] at h
    exact Except.ok.inj h ▸ .nil
  | cons j rest ih =>
    simp only [readBlocks, bind_eq_ok_iff, pure_eq_ok_iff] at h
    obtain ⟨b, hb, bs, hbs, rfl⟩ := h
    exact .cons hb (ih hbs)

theorem forall₂_of_readRows {start : Json} {js : List Json} {rows : List Row}
    (h : readRows start js = .ok rows) :
    List.Forall₂ (fun j row => ∃ first, readCells first (j.itemsAt "tableCells") = .ok row.cells)
      js rows := by
  induction js generalizing rows with
  | nil =>
    rw [readRows] at h
    exact Except.ok.inj h ▸ .nil
  | cons j rest ih =>
    simp only [readRows, bind_eq_ok_iff, liftM_fault_eq_ok_iff] at h
    obtain ⟨first, -, h⟩ := h
    split at h
    · exact absurd h throw_ne_ok
    · next items hitems =>
      simp only [bind_eq_ok_iff, liftM_fault_eq_ok_iff, pure_eq_ok_iff] at h
      obtain ⟨cells, hcells, last, -, rows, hrows, rfl⟩ := h
      rw [Json.recordsAt_eq_ok hitems] at hcells
      exact .cons ⟨first, hcells⟩ (ih hrows)

theorem forall₂_of_readCells {start : Json} {js : List Json} {cells : List Cell}
    (h : readCells start js = .ok cells) :
    List.Forall₂ (fun j cell => readBlocks (j.itemsAt "content") = .ok cell.content) js cells := by
  induction js generalizing cells with
  | nil =>
    rw [readCells] at h
    exact Except.ok.inj h ▸ .nil
  | cons j rest ih =>
    simp only [readCells, bind_eq_ok_iff, liftM_fault_eq_ok_iff] at h
    obtain ⟨first, -, style, -, last, -, h⟩ := h
    split at h
    · exact absurd h throw_ne_ok
    · next items hitems =>
      simp only [bind_eq_ok_iff, liftM_fault_eq_ok_iff, pure_eq_ok_iff] at h
      obtain ⟨content, hcontent, rowSpan, -, columnSpan, -, cells, hcells, rfl⟩ := h
      rw [Json.recordsAt_eq_ok hitems] at hcontent
      exact .cons hcontent (ih hcells)

end DocTemplate
