import DocTemplate.Edit.Basic
import DocTemplate.Json.Shape
import DocTemplate.Program

/-!
# The document store

Everything that is done to documents is done through a store: a document is fetched, a batch of
edits is applied to it as a whole, it is copied or exported. A batch can require the revision that
it was planned from; the store refuses it if the document has changed since.

Work on a document holds the document's lock (`withDocument`), from the fetch that a batch is
planned from until the batch is applied. The lock is released whether the work ends well or not.
Ids, titles and revisions are JSON data and are passed on as they are, but a document is locked only
by an id that can be looked up.
-/

namespace DocTemplate

/-- What a document store can be asked for. -/
inductive StoreRequest where
  /-- Waits until nobody else holds the lock of a document, and takes it. -/
  | acquire (documentId : Json)
  /-- Gives the lock of a document back. -/
  | release (documentId : Json)
  /-- Reads a document. -/
  | fetch (documentId : Json)
  /-- Applies edits in order, all or none; only at the revision that is required. -/
  | apply (documentId : Json) (edits : List Edit) (revision : Json)
  /-- Copies a document. -/
  | copy (documentId title : Json)
  /-- Renders a document as HTML. -/
  | exportHtml (documentId : Json)
  /-- Renders a document as PDF. -/
  | exportPdf (documentId : Json)

/-- What a request is answered with. The answer to a copy is the id of the new document. -/
abbrev StoreRequest.Answer : StoreRequest → Type
  | acquire _ => Unit
  | release _ => Unit
  | fetch _ => Except Failure Json
  | apply .. => Except Failure Json
  | copy .. => Except Failure Json
  | exportHtml _ => Except Failure Json
  | exportPdf _ => Except Failure ByteArray

/-- The interface of a document store. -/
abbrev documentStore : Interface :=
  ⟨StoreRequest, StoreRequest.Answer⟩

namespace Store

/-- Reads a document. -/
def fetch (documentId : Json) : Action documentStore Json :=
  Action.request (.fetch documentId) rfl

/-- Applies edits to a document. -/
def apply (documentId : Json) (edits : List Edit) (revision : Json) :
    Action documentStore Json :=
  Action.request (.apply documentId edits revision) rfl

/-- Copies a document and gives the id of the copy. -/
def copy (documentId title : Json) : Action documentStore Json :=
  Action.request (.copy documentId title) rfl

/-- Renders a document as HTML. -/
def exportHtml (documentId : Json) : Action documentStore Json :=
  Action.request (.exportHtml documentId) rfl

/-- Renders a document as PDF. -/
def exportPdf (documentId : Json) : Action documentStore ByteArray :=
  Action.request (.exportPdf documentId) rfl

/-- Refuses an id that cannot be looked up. -/
def checkId (documentId : Json) : Except Fault Unit :=
  match documentId.kind with
  | .arr => .error (.unhashable .arr)
  | .obj => .error (.unhashable .obj)
  | _ => .ok ()

/-- Work that is done while holding the lock of a document. -/
def withDocument {α : Type} (documentId : Json) (work : Action documentStore α) :
    Action documentStore α :=
  match checkId documentId with
  | .error f => throw (.fault f)
  | .ok () => ExceptT.mk do
    Program.request (I := documentStore) (.acquire documentId)
    let result ← work.run
    Program.request (I := documentStore) (.release documentId)
    return result

end Store

end DocTemplate
