import DocTemplate.Template.Batch
import DocTemplate.Plan.SectionTables

/-!
# Rendering section tables

Replaces every section marker of a document by a filled table, with the positions that the store
has really given to it. The markers are taken from the last one to the first, each in two batches:

* the empty table is inserted at the marker;
* the document is read again, the new table is looked up, and one batch fills it and deletes the
  marker.

The lock of the document is held throughout, so no other batch comes between a fetch and the batch
that is planned from it. Markers without usable data stay where they are.
-/

namespace DocTemplate

/-- What became of the section markers of a document. -/
structure RenderedSections where
  rendered : List Text := []
  skipped : List SkippedSection := []
  batches : List AppliedBatch := []

namespace RenderedSections

/-- The parts of the report on section markers. Of the batches it has only the number. -/
def fields (r : RenderedSections) : List (String × Json) :=
  [("rendered", .arr (r.rendered.map .ofText)),
    ("skipped", .arr (r.skipped.map SkippedSection.toJson)),
    ("batches", .int r.batches.length)]

/-- The report on section markers. -/
def toJson (r : RenderedSections) : Json :=
  .obj r.fields

end RenderedSections

namespace Template

/-- The section marker at a place among all section markers of a snapshot. It must have the name
that stood there before. -/
def markerAt (snapshot : Snapshot) (ordinal : Nat) (name : Text) :
    Except EngineError SectionMarker :=
  match (TemplateScan.ofLinear snapshot.linear).sectionMarkers[ordinal]? with
  | some marker =>
    if marker.name = name then .ok marker else .error (.staleSnapshot .null snapshot.revision .null)
  | none => .error (.staleSnapshot .null snapshot.revision .null)

/-- Where the section marker at a place stands in the document. -/
def markerRange (snapshot : Snapshot) (ordinal : Nat) (name : Text) :
    Except Failure (Int × Int) := do
  let marker ← markerAt snapshot ordinal name
  let (start, stop) ← snapshot.range (.int marker.start) (.int marker.stop)
  return (start.index, stop.index)

/-- Plans the filling of the table that was inserted at `index`, and the deletion of its marker. -/
def planInserted (snapshot : Snapshot) (ordinal : Nat) (name : Text) (layout : TableLayout)
    (index : Int) : Except Failure (List Edit) := do
  match ← snapshot.tableAt (.int (TableGeometry.startAfter index)) with
  | none => throw (.engine (.tableNotFound (.int index) (.int snapshot.body.tables.length)))
  | some table =>
    let (start, stop) ← markerRange snapshot ordinal name
    planTableFill table layout (some (.int start, .int stop))

/-- Puts a filled table in the place of one section marker: the batch that inserts it, and the batch
that fills it. -/
def renderMarker (options : FillOptions) (documentId : Json) (ordinal : Nat) (name : Text)
    (layout : TableLayout) (snapshot : Snapshot) :
    Action documentStore (AppliedBatch × AppliedBatch) := do
  let (index, _) ← markerRange snapshot ordinal name
  let insert := .insertTable (.int index) layout.rowCount layout.columnCount
  let inserted ← applyEdits documentId [insert] snapshot.revision
  let snapshot ← fetchSnapshot options documentId
  let fill ← planInserted snapshot ordinal name layout index
  let filled ← applyEdits documentId fill snapshot.revision
  return (inserted, filled)

/-- The snapshot to work from: the one at hand, or a new one. -/
def currentSnapshot (options : FillOptions) (documentId : Json) :
    Option Snapshot → Action documentStore Snapshot
  | some snapshot => pure snapshot
  | none => fetchSnapshot options documentId

/-- Renders section markers that are listed from the last one to the first, each with its place
among all of them. `fresh` is a snapshot that is still good. -/
def renderMarkers (options : FillOptions) (documentId : Json) (sections : SectionData)
    (fresh : Option Snapshot) : List (SectionMarker × Nat) → Action documentStore RenderedSections
  | [] => return {}
  | (marker, ordinal) :: rest => do
    let selected : Except Failure (Except SkippedSection Section) := do
      selectSection marker sections
    match ← selected with
    | .error skipped =>
      let result ← renderMarkers options documentId sections fresh rest
      return { result with skipped := result.skipped ++ [skipped] }
    | .ok data =>
      let snapshot ← currentSnapshot options documentId fresh
      let (inserted, filled) ← renderMarker options documentId ordinal marker.name
        (data.layout options.style) snapshot
      let result ← renderMarkers options documentId sections none rest
      return { result with
        rendered := result.rendered ++ [marker.name]
        batches := inserted :: filled :: result.batches }

/-- Replaces every section marker of a document by a filled table. -/
def renderSections (options : FillOptions) (documentId : Json) (sections : SectionData) :
    Action documentStore RenderedSections :=
  Store.withDocument documentId do
    let snapshot ← fetchSnapshot options documentId
    let markers := (TemplateScan.ofLinear snapshot.linear).sectionMarkers
    renderMarkers options documentId sections (some snapshot) markers.zipIdx.reverse

end Template

end DocTemplate
