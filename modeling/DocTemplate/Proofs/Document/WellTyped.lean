import DocTemplate.Proofs.Document.Reading

/-!
# Well-typed documents

What the document service promises about the JSON of a document, as far as the reader looks at it:
ranges are integers, lists are arrays, and what is asked for a field is a record. Every field may be
absent, and nothing is said about which kinds of elements there are.
-/

namespace DocTemplate.Json

/-! ## Records and their fields -/

/-- The value is an object. -/
def IsRecord (j : Json) : Prop :=
  ∃ fields, j = .obj fields

/-- The value is an array. -/
def IsArray (j : Json) : Prop :=
  ∃ items, j = .arr items

/-- The value is an integer. -/
def IsInt (j : Json) : Prop :=
  ∃ n, j = .int n

/-- The value is a string. -/
def IsString (j : Json) : Prop :=
  ∃ s, j = .str s

/-- What a field holds satisfies `p`, if the field is there. -/
def FieldIs (j : Json) (key : String) (p : Json → Prop) : Prop :=
  ∀ v, j.get? key = some v → p v

/-- A field of a record, or a default in its place. -/
def getOr (j : Json) (key : String) (default : Json) : Json :=
  (j.get? key).getD default

@[simp] theorem isRecord_obj (fields : List (String × Json)) : IsRecord (.obj fields) :=
  ⟨fields, rfl⟩

@[simp] theorem isArray_arr (items : List Json) : IsArray (.arr items) := ⟨items, rfl⟩

@[simp] theorem fieldIs_obj {fields : List (String × Json)} {key : String} {p : Json → Prop} :
    FieldIs (.obj fields) key p ↔ ∀ v, fields.lookup key = some v → p v := Iff.rfl

@[simp] theorem itemsAt_obj (fields : List (String × Json)) (key : String) :
    itemsAt (.obj fields) key = ((fields.lookup key).map items).getD [] := rfl

section Fields

variable {j default : Json} {key : String} {p : Json → Prop}

theorem FieldIs.getOr (h : j.FieldIs key p) (hdefault : p default) : p (j.getOr key default) := by
  rw [Json.getOr]
  cases hv : j.get? key with
  | none => exact hdefault
  | some v => exact h v hv

theorem IsRecord.fieldD_eq (h : j.IsRecord) (key : String) (default : Json) :
    j.fieldD key default = .ok (j.getOr key default) := by
  obtain ⟨fields, rfl⟩ := h
  rfl

theorem IsRecord.hasMember_eq (h : j.IsRecord) (key : String) :
    j.hasMember key = .ok (j.get? key).isSome := by
  obtain ⟨fields, rfl⟩ := h
  rfl

theorem FieldIs.getOr_eq_arr (h : j.FieldIs key IsArray) :
    j.getOr key (.arr []) = .arr (j.itemsAt key) := by
  rw [Json.getOr, itemsAt]
  cases hv : j.get? key with
  | none => rfl
  | some v =>
    obtain ⟨items, rfl⟩ := h v hv
    rfl

theorem IsRecord.recordsAt_eq (h : j.IsRecord) (hkey : j.FieldIs key IsArray) :
    j.recordsAt key = .ok (j.itemsAt key) := by
  rw [recordsAt, h.fieldD_eq, hkey.getOr_eq_arr]
  rfl

theorem IsRecord.recordsAt_ne_error (h : j.IsRecord) (hkey : j.FieldIs key IsArray) (f : Fault) :
    j.recordsAt key ≠ .error f := by
  simp [h.recordsAt_eq hkey]

end Fields

/-! ## Blocks -/

/-- A record whose range, where it is given, is made of integers. -/
@[mk_iff] structure HasRange (j : Json) : Prop where
  record : j.IsRecord
  start : j.FieldIs "startIndex" IsInt
  stop : j.FieldIs "endIndex" IsInt

/-- A run of text. -/
@[mk_iff] structure IsRun (j : Json) : Prop where
  record : j.IsRecord
  content : j.FieldIs "content" IsString

/-- An element of a paragraph. -/
@[mk_iff] structure IsElement (j : Json) : Prop extends HasRange j where
  run : j.FieldIs "textRun" IsRun

/-- A paragraph. -/
@[mk_iff] structure IsParagraph (j : Json) : Prop where
  record : j.IsRecord
  listed : j.FieldIs "elements" IsArray
  elements : ∀ e ∈ j.itemsAt "elements", e.IsElement
  style : j.FieldIs "paragraphStyle" IsRecord

/-- A cell of a table, whatever stands in it. -/
@[mk_iff] structure IsCell (j : Json) : Prop extends HasRange j where
  listed : j.FieldIs "content" IsArray
  style : j.FieldIs "tableCellStyle" IsRecord

/-- A row of a table. -/
@[mk_iff] structure IsRow (j : Json) : Prop extends HasRange j where
  listed : j.FieldIs "tableCells" IsArray
  cells : ∀ c ∈ j.itemsAt "tableCells", c.IsCell

/-- A table, whatever stands in its cells. -/
@[mk_iff] structure IsTable (j : Json) : Prop where
  record : j.IsRecord
  listed : j.FieldIs "tableRows" IsArray
  rows : ∀ row ∈ j.itemsAt "tableRows", row.IsRow

/-- A record that lists its content, whatever that is. -/
@[mk_iff] structure HasContent (j : Json) : Prop where
  record : j.IsRecord
  listed : j.FieldIs "content" IsArray

/-- A block of any kind, known or not, whatever stands in its cells or its table of contents. -/
@[mk_iff] structure HasBlockFields (j : Json) : Prop extends HasRange j where
  paragraph : j.FieldIs "paragraph" IsParagraph
  table : j.FieldIs "table" IsTable
  contents : j.FieldIs "tableOfContents" HasContent

/-- A block with well-typed blocks in the cells of its table and in its table of contents. -/
inductive IsBlock : Json → Prop
  | mk {j : Json} (fields : j.HasBlockFields)
      (inCells : ∀ q, j.get? "table" = some q → ∀ row ∈ q.itemsAt "tableRows",
        ∀ c ∈ row.itemsAt "tableCells", ∀ inner ∈ c.itemsAt "content", IsBlock inner)
      (inContents : ∀ q, j.get? "tableOfContents" = some q → ∀ inner ∈ q.itemsAt "content",
        IsBlock inner) : IsBlock j

/-- The body of a document. -/
@[mk_iff] structure IsBody (j : Json) : Prop extends HasContent j where
  blocks : ∀ block ∈ j.itemsAt "content", block.IsBlock

theorem isBody_empty : IsBody (.obj []) where
  record := isRecord_obj []
  listed := by simp
  blocks := by simp

/-- A record that holds a body, if it has one. -/
@[mk_iff] structure HoldsBody (j : Json) : Prop where
  record : j.IsRecord
  body : j.FieldIs "body" IsBody

/-- A tab, whatever the tabs inside it are. -/
structure HasTabFields (j : Json) : Prop where
  record : j.IsRecord
  properties : j.FieldIs "tabProperties" IsRecord
  document : j.FieldIs "documentTab" HoldsBody
  listed : j.FieldIs "childTabs" IsArray

/-- A tab with the tabs inside it. -/
inductive IsTab : Json → Prop
  | mk {j : Json} (fields : j.HasTabFields)
      (children : ∀ child ∈ j.itemsAt "childTabs", IsTab child) : IsTab j

theorem IsTab.fields {tab : Json} (h : tab.IsTab) : tab.HasTabFields := by
  cases h with
  | mk fields _ => exact fields

/-- A document. One without a body counts as a body itself. -/
@[mk_iff] structure IsDocument (j : Json) : Prop extends HoldsBody j where
  listed : j.FieldIs "tabs" IsArray
  tabs : ∀ tab ∈ j.itemsAt "tabs", tab.IsTab
  bare : j.get? "body" = none → j.IsBody

end DocTemplate.Json
