import DocTemplate.Document.Reader
import DocTemplate.Document.Snapshot
import DocTemplate.Marker.TemplateScan
import DocTemplate.Section.Asset
import DocTemplate.Section.Layout
import DocTemplate.Store.Basic

/-!
# Batches

The steps that every operation on a template is made of: reading a document into a snapshot, and
applying a batch of edits to it.

* `fetchSnapshot` reads a document.
* `applyEdits` applies a batch and reports it. An empty batch is reported without asking the store.
* `applyBatch` does so while holding the lock of the document.
-/

namespace DocTemplate

/-- How templates are filled. -/
structure FillOptions where
  /-- The tab to work on; the first one if none is given. -/
  tabId : Json := .null
  /-- The least width of the keys of asset sections. -/
  minPadding : Json := .int assetMinPadding
  /-- The look of section tables. -/
  style : LayoutStyle := {}

/-- Where a document can be looked at. -/
def documentLink (documentId : Json) : String :=
  s!"https://docs.google.com/document/d/{documentId.display}/edit"

/-- A batch of edits that was applied to a document, and by how much it lengthened the document. -/
structure AppliedBatch where
  documentId : Json
  edits : List Edit
  shift : Int

namespace AppliedBatch

/-- How many edits a report lists. -/
def summaryLength : Nat := 5

/-- A batch in one sentence. -/
def message (b : AppliedBatch) : String :=
  if b.edits.isEmpty then "No operations to apply"
  else s!"Successfully applied {b.edits.length} operation(s)"

/-- The parts of the report of a batch. -/
def fields (b : AppliedBatch) : List (String × Json) :=
  [("success", .bool true),
    ("operations_completed", .int b.edits.length),
    ("total_operations", .int b.edits.length),
    ("total_position_shift", .int b.shift),
    ("message", .str b.message),
    ("operation_summary", .arr ((b.edits.take summaryLength).map fun e => .str e.describe)),
    ("document_link", .str (documentLink b.documentId))]

/-- The report of a batch. -/
def toJson (b : AppliedBatch) : Json :=
  .obj b.fields

end AppliedBatch

namespace Template

/-- Reads a document. -/
def fetchSnapshot (options : FillOptions) (documentId : Json) :
    Action documentStore Snapshot := do
  let document ← Store.fetch documentId
  Snapshot.ofDocument document documentId options.tabId

/-- Finds the markers of a document. -/
def scan (options : FillOptions) (documentId : Json) : Action documentStore TemplateScan := do
  return .ofLinear (← fetchSnapshot options documentId).linear

/-- Applies a batch of edits, for one who holds the lock of the document. -/
def applyEdits (documentId : Json) (edits : List Edit) (revision : Json) :
    Action documentStore AppliedBatch := do
  if edits.isEmpty then return ⟨documentId, edits, 0⟩
  let _ ← Store.apply documentId edits revision
  let shift : Except Failure Int := do Edit.totalShift edits
  return ⟨documentId, edits, ← shift⟩

/-- Applies a batch of edits. -/
def applyBatch (documentId : Json) (edits : List Edit) (revision : Json := .null) :
    Action documentStore AppliedBatch :=
  Store.withDocument documentId (applyEdits documentId edits revision)

end Template

end DocTemplate
