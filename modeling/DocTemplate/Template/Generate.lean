import DocTemplate.Template.Variables
import DocTemplate.Template.SectionTables

/-!
# Generating documents

Copies a template and fills the copy: first the variables and asset sections, if there are any, then
the section tables, if there are any. The template stays as it is.
-/

namespace DocTemplate

/-- A document that was made from a template, with what was done to it. -/
structure GeneratedDocument where
  documentId : Json
  title : Json
  filled : Option AppliedBatch
  sections : Option RenderedSections

/-- The report on a document that was made from a template. -/
def GeneratedDocument.toJson (d : GeneratedDocument) : Json :=
  .obj [("document_id", d.documentId), ("title", d.title),
    ("document_link", .str (documentLink d.documentId)),
    ("variables", (d.filled.map AppliedBatch.toJson).getD .null),
    ("sections", (d.sections.map RenderedSections.toJson).getD .null)]

namespace Template

/-- Copies a template and fills the copy. -/
def generateDocument (options : FillOptions) (templateId title : Json)
    (values : ReadValues) (assets : List AssetSection) (sections : SectionData) :
    Action documentStore GeneratedDocument := do
  let documentId ← Store.copy templateId title
  let filled ← if values.isEmpty && assets.isEmpty then pure none
    else some <$> fillVariables options documentId values assets
  let sections ← if sections.isEmpty then pure none
    else some <$> renderSections options documentId sections
  return { documentId, title, filled, sections }

end Template

end DocTemplate
