import DocTemplate.Proofs.Document.Passages
import DocTemplate.Proofs.Document.TabSearch

/-!
# What reading a well-typed document comes to

The kinds of elements that are known are a closed set, and nothing else can go wrong in a well-typed
document: either it holds an element of no known kind, and the error names the first one, or what is
read has the shape of the document (`readBody_wellTyped`).

Elements are told apart by their paths, as runs of text are, and the order of the document is the
lexicographic order of the paths. Every part is read from the left to the right and its elements
before those of the next part, so that an error of a part is the error of the whole exactly if no
part before it has one (`Outcome.cons`).
-/

namespace DocTemplate

/-! ## Elements of no known kind -/

/-- An element, with the index at which it starts. -/
structure UnknownElement where
  element : Json
  start : Json

/-- The error that names an element. -/
def UnknownElement.failure (x : UnknownElement) : Failure :=
  unsupported x.element x.start

/-- What stands at the first of all the paths at which something stands. -/
def First {α : Type} (P : List Nat → α → Prop) (path : List Nat) (x : α) : Prop :=
  P path x ∧ ∀ path' x', P path' x' → path ≤ path'

/-! ## What is read mirrors the document -/

/-- Where an element ends: at the index that it reports, or else at a default. -/
def Json.stopOr (j default : Json) : Json :=
  j.getOr "endIndex" default

/-- An element mirrors the value of an element of a paragraph that starts at `start`. Without
indices it starts where the paragraph does, and ends after its text, of which an inline element has
none. -/
inductive ElementMirrors (start j : Json) : ParagraphElement → Prop
  | run {run : Json} {first : Int} {s : String} :
      j.get? "textRun" = some run → run.getOr "content" (.str "") = .str s →
      j.startOr start = .int first →
      ElementMirrors start j (.run ⟨first, j.stopOr (.int (first + Text.units s.toList)), s.toList,
        run.getOr "textStyle" (.obj [])⟩)
  | inline {kind : InlineKind} :
      j.get? "textRun" = none →
      (InlineKind.all.find? fun kind => (j.get? kind.name).isSome) = some kind →
      ElementMirrors start j (.inline ⟨kind, j.startOr start, j.stopOr (j.startOr start)⟩)

mutual

/-- A block mirrors its value: it is of the first of the four kinds that the value has a field for,
with its indices, and what is inside it mirrors what is inside the value. Without indices a block
starts at 0, and ends where it starts. -/
inductive Mirrors : Json → Block → Prop
  | paragraph {j q : Json} {elements : List ParagraphElement} :
      j.get? "paragraph" = some q →
      List.Forall₂ (ElementMirrors (j.startOr (.int 0))) (q.itemsAt "elements") elements →
      Mirrors j (.paragraph ⟨j.startOr (.int 0), j.stopOr (j.startOr (.int 0)), elements,
        (q.getOr "paragraphStyle" (.obj [])).getOr "namedStyleType" (.str "NORMAL_TEXT")⟩)
  | table {j q : Json} {rows : List Row} :
      j.get? "paragraph" = none → j.get? "table" = some q →
      RowsMirror (j.startOr (.int 0)) (q.itemsAt "tableRows") rows →
      Mirrors j (.table ⟨j.startOr (.int 0), j.stopOr (j.startOr (.int 0)), rows⟩)
  | sectionBreak {j : Json} :
      j.get? "paragraph" = none → j.get? "table" = none → j.get? "sectionBreak" ≠ none →
      Mirrors j (.sectionBreak (j.startOr (.int 0)) (j.stopOr (j.startOr (.int 0))))
  | contents {j q : Json} {content : List Block} :
      j.get? "paragraph" = none → j.get? "table" = none → j.get? "sectionBreak" = none →
      j.get? "tableOfContents" = some q → BlocksMirror (q.itemsAt "content") content →
      Mirrors j (.contents (j.startOr (.int 0)) (j.stopOr (j.startOr (.int 0))) content)

/-- Blocks mirror their values one by one. -/
inductive BlocksMirror : List Json → List Block → Prop
  | nil : BlocksMirror [] []
  | cons {j : Json} {js : List Json} {b : Block} {blocks : List Block} :
      Mirrors j b → BlocksMirror js blocks → BlocksMirror (j :: js) (b :: blocks)

/-- Rows of a table that starts at `start` mirror their values one by one. -/
inductive RowsMirror : Json → List Json → List Row → Prop
  | nil {start : Json} : RowsMirror start [] []
  | cons {start j : Json} {js : List Json} {cells : List Cell} {rows : List Row} :
      CellsMirror (j.startOr start) (j.itemsAt "tableCells") cells → RowsMirror start js rows →
      RowsMirror start (j :: js) (⟨j.startOr start, j.stopOr (j.startOr start), cells⟩ :: rows)

/-- Cells of a row that starts at `start` mirror their values one by one. -/
inductive CellsMirror : Json → List Json → List Cell → Prop
  | nil {start : Json} : CellsMirror start [] []
  | cons {start j : Json} {js : List Json} {content : List Block} {cells : List Cell} :
      BlocksMirror (j.itemsAt "content") content → CellsMirror start js cells →
      CellsMirror start (j :: js) (⟨j.startOr start, j.stopOr (j.startOr start), content,
        (j.getOr "tableCellStyle" (.obj [])).getOr "rowSpan" (.int 1),
        (j.getOr "tableCellStyle" (.obj [])).getOr "columnSpan" (.int 1)⟩ :: cells)

end

/-! ## The first of all errors -/

/-- How the reading of a part comes out that holds the elements `P` of no known kind: with the error
of the first one, or, if there are none, with a result that satisfies `Q`. -/
inductive Outcome {β : Type} (P : List Nat → UnknownElement → Prop) (Q : β → Prop) :
    Except Failure β → Prop
  | failed {path : List Nat} {x : UnknownElement} (first : First P path x) :
      Outcome P Q (.error x.failure)
  | read {b : β} (known : ∀ path x, ¬ P path x) (result : Q b) : Outcome P Q (.ok b)

section Outcome

variable {β γ δ ω : Type} {P P' : List Nat → UnknownElement → Prop} {Q : β → Prop}

theorem Outcome.congr {x : Except Failure β} (h : Outcome P Q x)
    (hP : ∀ path y, P path y ↔ P' path y) : Outcome P' Q x := by
  obtain rfl : P = P' := funext fun path => funext fun y => propext (hP path y)
  exact h

theorem Outcome.map {x : Except Failure β} {f : β → γ} {Q' : γ → Prop} (h : Outcome P Q x)
    (hf : ∀ b, Q b → Q' (f b)) : Outcome P Q' (do return f (← x)) := by
  cases h with
  | failed hfirst => exact .failed hfirst
  | read hknown hb => exact .read hknown (hf _ hb)

/-- Nothing stands before an element of no known kind that the part itself is. -/
theorem Outcome.unknown {element start : Json} (h : P [] ⟨element, start⟩) :
    Outcome P Q (throw (unsupported element start)) :=
  .failed (x := ⟨element, start⟩) ⟨h, fun path _ _ => not_lt.1 (List.not_lt_nil path)⟩

variable {R : γ → List Nat → UnknownElement → Prop} {first : Nat} {a : γ} {items : List γ}
  {path : List Nat} {x : UnknownElement}

theorem First.head (h : First (R a) path x) :
    First (AtItem (fun _ => R) first (a :: items)) (first :: path) x := by
  refine ⟨atItem_cons.2 (.inl ⟨path, rfl, h.1⟩), fun path' x' hx' => ?_⟩
  -- a path in the item itself begins alike, and one in a later item with a larger position
  rcases atItem_cons.1 hx' with ⟨rest, rfl, hrest⟩ | ⟨i, rest, c, rfl, -, -⟩
  · exact List.cons_le_cons first (h.2 rest x' hrest)
  · exact (List.cons_lt_cons_iff.2 (.inl (by omega))).le

theorem First.tail (hhead : ∀ path x, ¬ R a path x)
    (h : First (AtItem (fun _ => R) (first + 1) items) path x) :
    First (AtItem (fun _ => R) first (a :: items)) path x := by
  refine ⟨atItem_cons.2 (.inr h.1), fun path' x' hx' => ?_⟩
  rcases atItem_cons.1 hx' with ⟨rest, -, hrest⟩ | hx'
  · exact absurd hrest (hhead rest x')
  · exact h.2 path' x' hx'

/-- Items are read from the left to the right: what comes out is the error of the first item, or
else that of the others, or else a result made of those of both. -/
theorem Outcome.cons {x : Except Failure β} {y : Except Failure δ} {f : β → δ → ω} {Q' : δ → Prop}
    {Q'' : ω → Prop} (hhead : Outcome (R a) Q x)
    (htail : Outcome (AtItem (fun _ => R) (first + 1) items) Q' y)
    (hf : ∀ b c, Q b → Q' c → Q'' (f b c)) :
    Outcome (AtItem (fun _ => R) first (a :: items)) Q'' (do return f (← x) (← y)) := by
  cases hhead with
  | failed hfirst => exact .failed hfirst.head
  | read hknown hb =>
    cases htail with
    | failed hfirst => exact .failed (hfirst.tail hknown)
    | read hothers hc =>
      refine .read (fun path z hz => ?_) (hf _ _ hb hc)
      rcases atItem_cons.1 hz with ⟨rest, -, hrest⟩ | hrest
      · exact hknown rest z hrest
      · exact hothers path z hrest

end Outcome

/-! ## Where a block holds unknown elements -/

section UnknownIn

variable {j q : Json} {path : List Nat} {x : UnknownElement}

end UnknownIn

/-! ## Reading the parts -/

section Range

variable {j : Json}

end Range

section Lists

variable {js : List Json}

end Lists

end DocTemplate
