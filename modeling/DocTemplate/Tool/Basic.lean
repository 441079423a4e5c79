import DocTemplate.Template.Generate
import DocTemplate.Service.Store

/-!
# Tools

The operations on templates as callers see them: each works on documents of the service, takes its
arguments as they were sent, and answers with a text.

* `scanTemplate` lists the markers of a document.
* `fillTemplate` fills variables and asset sections.
* `insertTables` replaces section markers by tables.
* `generate` makes a filled document from a template.
* `exportPdf` writes a document to a file.

Values and sections are records, and may be null where nothing is to be filled.
-/

namespace DocTemplate.Tool

/-- The asset sections that a caller sent. Each is checked; problems do not stop the work. -/
def readAssets (assets : Json) : Except Fault (List AssetSection) := do
  if !assets.isGiven then return []
  let sections ← (← assets.records).mapM AssetSection.ofJson
  sections.forM fun s => discard s.problems
  return sections

/-- The fields of a record; a value that is not given has none. -/
def givenFields (j : Json) : Except Fault (List (String × Json)) :=
  match j with
  | .obj fields => .ok fields
  | other => if other.isGiven then .error (.lacks other.kind "items") else .ok []

/-- The values that a caller sent, by name. -/
def readValues (values : Json) : Template.ReadValues :=
  match values with
  | .obj fields => .ok (.ofList (fields.map fun (name, value) => (name.toList, .ofJson value)))
  | other => .error (.lacks other.kind "items")

/-- The data of sections that a caller sent, by name. -/
def readSections (sections : Json) : Except Fault SectionData := do
  let entries ← (← givenFields sections).mapM fun (name, data) => do
    return (name.toList, some (← Section.ofJson data))
  return .ofList entries

/-- Carries a reading of arguments into a tool. -/
def checked {α : Type} (r : Except Fault α) : Action documentService α :=
  ExceptT.mk (pure (r.mapError Failure.fault))

/-- An answer of a tool, two spaces for each level. -/
def answerText (fields : List (String × Json)) : String :=
  (Json.obj fields).render (some 2)

/-- The fields that the template of an asset section uses. -/
def blockFields (block : AssetBlock) : List (String × Json) :=
  [("fields", .arr ((templateFields block.template).map .ofText))]

/-- Lists the markers of a document. -/
def scanTemplate (options : FillOptions) (documentId : Json) : Action documentService String := do
  Service.connect
  let snapshot ← Service.onService (Template.fetchSnapshot options documentId)
  let scan := TemplateScan.ofLinear snapshot.linear
  return answerText (scan.toJson blockFields ++
    [("document_id", documentId), ("title", snapshot.title), ("revision_id", snapshot.revision),
      ("document_link", .str (documentLink documentId))])

/-- Fills the variables and asset sections of a document. -/
def fillTemplate (options : FillOptions) (documentId values assets : Json) :
    Action documentService String := do
  let _ ← checked (Entry.ofJson values).length
  let assets ← checked (readAssets assets)
  Service.connect
  let batch ← Service.onService
    (Template.fillVariables options documentId (readValues values) assets)
  if assets.isEmpty then return answerText batch.fields
  let preview ← checked (previewAssets assets)
  return answerText (batch.fields ++ [("asset_sections_preview", .ofText preview)])

/-- Replaces the section markers of a document by tables. -/
def insertTables (options : FillOptions) (documentId sections : Json) :
    Action documentService String := do
  let _ ← checked sections.elements
  Service.connect
  let sections ← checked (readSections sections)
  let result ← Service.onService (Template.renderSections options documentId sections)
  return answerText (result.fields ++ [("document_link", .str (documentLink documentId))])

/-- Makes a filled document from a template. -/
def generate (options : FillOptions) (templateId title values assets sections : Json) :
    Action documentService String := do
  Service.connect
  let assets ← checked (readAssets assets)
  let sections ← checked (readSections sections)
  let values := if values.isGiven then readValues values else .ok .empty
  let document ← Service.onService (Template.generateDocument options templateId title values
    assets sections)
  return document.toJson.render (some 2)

/-- The path that a caller sent. -/
def readPath : Json → Except Fault String
  | .str path => .ok path
  | other => .error (.notPath other.kind)

/-- Writes a document to a file. -/
def exportPdf (documentId path : Json) : Action documentService String := do
  Service.connect
  let content ← Service.onService (Store.exportPdf documentId)
  let path ← checked (readPath path)
  Service.save path content
  let size := String.ofList (Text.grouped content.size)
  return s!"Exported document {documentId.display} to {path} ({size} bytes)."

end DocTemplate.Tool
