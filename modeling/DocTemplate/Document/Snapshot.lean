import DocTemplate.Document.Linear

/-!
# Snapshots

Everything that is derived from one fetch of a document: its body, its linear text, and the
revision at which it was read. Positions that come from a snapshot hold only until the document
changes.
-/

namespace DocTemplate

/-- One fetch of a document. Its id, title and revision are kept as they were given. -/
structure Snapshot where
  documentId : Json
  revision : Json
  title : Json
  body : Body
  linear : LinearText

namespace Snapshot

/-- The snapshot of the JSON of a document, in the tab with id `tabId` if there is one. An id that
is given and not empty wins over the one in the document. -/
def ofDocument (document documentId tabId : Json) : Except Failure Snapshot := do
  let revision ← document.fieldD "revisionId" .null
  let body ← readBody document tabId
  let ownId ← document.fieldD "documentId" (.str "")
  let title ← document.fieldD "title" (.str "Untitled Document")
  return {
    documentId := if documentId.isGiven then documentId else ownId
    revision := revision
    title := title
    body := body
    linear := body.linear revision }

/-- The snapshot of a body of which nothing else is known. -/
def ofBody (body : Body) : Snapshot :=
  { documentId := .str "", revision := .null, title := .str "", body := body,
    linear := body.linear .null }

end Snapshot

end DocTemplate
