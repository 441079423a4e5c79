import DocTemplate.Document.Reader
import DocTemplate.Edit.Request
import DocTemplate.Service.Basic
import DocTemplate.Store.Basic
import DocTemplate.Text.Lowercase
import DocTemplate.Text.Replace

/-!
# The store on the service

How the document service does what a document store is asked for. Failures of the service pass
through as they are, except that a batch which is refused because of its required revision was
planned from a stale snapshot.
-/

namespace DocTemplate.Service

/-- The format of a document as HTML. -/
def htmlType : String := "text/html"

/-- The format of a document as PDF. -/
def pdfType : String := "application/pdf"

/-- A revision that is required: one that is given and not empty. -/
def requiredRevision (revision : Json) : Option Json :=
  if revision.isGiven then some revision else none

/-- The body of a batch. -/
def updateBody (requests : List Json) (revision : Json) : Json :=
  .obj (("requests", .arr requests) ::
    ((requiredRevision revision).map fun r =>
      ("writeControl", Json.obj [("requiredRevisionId", r)])).toList)

/-- The answer to a batch without requests. -/
def noReplies : Json :=
  .obj [("replies", .arr [])]

/-- Whether a message of the service speaks of revisions. -/
def mentionsRevision (message : String) : Bool :=
  let word := "revision".toList
  let message : Text := message.toList
  !(message.lower.offsetsOf word word.length).isEmpty

/-- The failure of a batch that required a revision. The status of a refusal is 400. -/
def batchFailure (revision : Json) : Failure → Failure
  | .http status text =>
    if (requiredRevision revision).isSome && status == 400 && mentionsRevision text then
      .engine (.staleSnapshot revision .null .null)
    else .http status text
  | failure => failure

/-- Applies edits as one batch. -/
def applyEdits (documentId : Json) (edits : List Edit) (revision : Json) :
    Action documentService Json := do
  let requests : Except Failure (List Json) := do Edit.toRequests edits
  let requests ← requests
  if requests.isEmpty then return noReplies
  ExceptT.mk do
    return match ← (update documentId (updateBody requests revision)).run with
      | .ok reply => .ok reply
      | .error failure => .error (batchFailure revision failure)

/-- The id of a copy, from the answer of the service. -/
def copiedId (reply : Json) : Except Fault Json :=
  match reply with
  | .obj fields =>
    match fields.lookup "id" with
    | some id => .ok id
    | none => .error (.missingKey (.str "id"))
  | .arr _ => .error (.badSubscript .arr .str)
  | .str _ => .error (.badSubscript .str .str)
  | other => .error (.notSubscriptable other.kind)

/-- Copies a document. -/
def copyDocument (documentId title : Json) : Action documentService Json := do
  let reply ← copy documentId (.obj [("name", title)])
  let id : Except Failure Json := do copiedId reply
  id

/-- Renders a document as HTML. -/
def exportHtml (documentId : Json) : Action documentService Json := do
  let content ← download documentId htmlType
  match Text.decodeUtf8 content.toList with
  | .ok text => return .ofText text
  | .error e => throw (.undecodable e)

/-- What the service does for a request to the store. -/
def answer : (r : StoreRequest) → Program documentService r.Answer
  | .acquire documentId => Program.request (I := documentService) (.acquire documentId)
  | .release documentId => Program.request (I := documentService) (.release documentId)
  | .fetch documentId => (get documentId).run
  | .apply documentId edits revision => (applyEdits documentId edits revision).run
  | .copy documentId title => (copyDocument documentId title).run
  | .exportHtml documentId => (exportHtml documentId).run
  | .exportPdf documentId => (download documentId pdfType).run

/-- Work with a document store, done on the service. -/
def onService {α : Type} (work : Action documentStore α) : Action documentService α :=
  ExceptT.mk (work.run.interpret answer)

end DocTemplate.Service
