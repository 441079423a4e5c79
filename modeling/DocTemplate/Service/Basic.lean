import DocTemplate.Program

/-!
# The document service

The requests that are sent to the service which keeps the documents, and the few other things that
a tool needs of the world: clients of the service, a pause, a file to write.
-/

namespace DocTemplate

/-- What the world can be asked for. -/
inductive ServiceRequest where
  /-- Waits until nobody else holds the lock of a document, and takes it. -/
  | acquire (documentId : Json)
  /-- Gives the lock of a document back. -/
  | release (documentId : Json)
  /-- Makes the clients of the service, with the stored credentials. -/
  | connect
  /-- Reads a document. -/
  | get (documentId : Json)
  /-- Sends a batch of requests for one document. -/
  | update (documentId : Json) (body : Json)
  /-- Copies a file. -/
  | copy (fileId : Json) (body : Json) (allDrives : Bool)
  /-- Downloads a file in another format, in chunks. -/
  | download (fileId : Json) (mimeType : String)
  /-- Waits. -/
  | pause (seconds : Nat)
  /-- Writes a file, with the directories above it. -/
  | save (path : String) (content : ByteArray)

/-- What a request is answered with. -/
abbrev ServiceRequest.Answer : ServiceRequest → Type
  | acquire _ => Unit
  | release _ => Unit
  | connect => Except Failure Unit
  | get _ => Except Failure Json
  | update .. => Except Failure Json
  | copy .. => Except Failure Json
  | download .. => Except Failure (List ByteArray)
  | pause _ => Unit
  | save .. => Except Failure Unit

/-- The interface of the document service. -/
abbrev documentService : Interface :=
  ⟨ServiceRequest, ServiceRequest.Answer⟩

namespace Service

/-- Makes the clients of the service. -/
def connect : Action documentService Unit :=
  Action.request .connect rfl

/-- Reads a document. -/
def get (documentId : Json) : Action documentService Json :=
  Action.request (.get documentId) rfl

/-- Sends a batch of requests. -/
def update (documentId : Json) (body : Json) : Action documentService Json :=
  Action.request (.update documentId body) rfl

/-- Copies a file, on whatever drive it is. -/
def copy (fileId : Json) (body : Json) : Action documentService Json :=
  Action.request (.copy fileId body true) rfl

/-- Downloads a file in another format. -/
def download (fileId : Json) (mimeType : String) : Action documentService ByteArray := do
  let chunks ← (Action.request (.download fileId mimeType) rfl :
    Action documentService (List ByteArray))
  return chunks.foldl (· ++ ·) .empty

/-- Writes a file. -/
def save (path : String) (content : ByteArray) : Action documentService Unit :=
  Action.request (.save path content) rfl

end Service

end DocTemplate
