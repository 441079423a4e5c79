import DocTemplate.Program

/-!
# Guarding tools

What the caller of a tool gets to see of a failure.

* An error of the engine is an answer: its report.
* So is a document that the service does not know: a report that names it.
* A broken connection is tried again after a pause, twice, if the tool only reads. A tool that
  changes documents is never tried again, since a part of its work may have been done.
* Failures of the credentials, and connections that were given up before, pass through.
* Every other failure is reported in a sentence that names the tool.
-/

namespace DocTemplate

/-- The failure of a guarded tool. -/
inductive ToolFailure where
  /-- A failure that passes through. -/
  | passed (failure : Failure)
  /-- The connection broke at each of so many attempts. -/
  | gaveUp (tool : String) (attempts : Nat) (failure : Failure)
  /-- Any other failure of a tool. -/
  | reported (tool : String) (failure : Failure)

namespace ToolFailure

/-- The failure that a failure of a tool goes back to. -/
def cause? : ToolFailure → Option Failure
  | passed _ => none
  | gaveUp _ _ failure => some failure
  | reported _ failure => some failure

/-- Whether the service refused the credentials. -/
def isRefusal (status : Int) : Bool :=
  status == 401 || status == 403

/-- The failure in words. -/
def message : ToolFailure → String
  | passed failure => failure.message
  | gaveUp tool attempts _ =>
    s!"A transient SSL error occurred in '{tool}' after {attempts} attempt(s). " ++
      "This is likely a temporary network or certificate issue. Please try again shortly."
  | reported tool (.http status text) =>
    s!"API error in {tool}: {text}" ++
      (if isRefusal status then
        ". The stored credentials may have expired or lack the Docs/Drive scopes."
      else "")
  | reported tool failure => s!"An unexpected error occurred in {tool}: {failure.message}"

end ToolFailure

/-- The document that the arguments of a tool speak of: the document id if it is given and not
empty, else the template id, else unknown. -/
def subjectOf (documentId templateId : Option Json) : Json :=
  match documentId.filter Json.isGiven with
  | some id => id
  | none => templateId.getD (.str "unknown")

/-- The report on a document that the service does not know. -/
def unknownDocument (subject : Json) : Json :=
  .obj [("error", .bool true),
    ("code", .str "DOCUMENT_NOT_FOUND"),
    ("message", .str s!"Document '{String.ofList subject.shown}' was not found"),
    ("reason",
      .str "The document ID may be incorrect or you may not have access to this document."),
    ("suggestion",
      .str ("Verify the document ID is correct. You can find the ID in the document's URL: " ++
        "docs.google.com/document/d/\x7bdocument_id\x7d/edit")),
    ("context",
      .obj [("received", .obj [("document_id", subject)]),
        ("possible_causes",
          .arr [.str "Document ID is incorrect", .str "Document was deleted",
            .str "You don't have permission to access this document"])])]

/-- A tool that is to be guarded. -/
structure GuardedTool where
  name : String
  /-- Whether the tool changes nothing, so that it can be tried again. -/
  readOnly : Bool
  /-- The document that the tool works on. -/
  subject : Json

namespace GuardedTool

/-- How often a tool that only reads is tried again. -/
def maxRetries : Nat := 2

/-- The pause after an attempt, in seconds. Each is twice the one before. -/
def delay (attempt : Nat) : Nat := Nat.pow 2 attempt

/-- What the caller gets to see when the last of so many attempts has failed. -/
def settle {α : Type} (tool : GuardedTool) (ofReport : String → α) (attempts : Nat)
    (failure : Failure) : Except ToolFailure α :=
  match failure with
  | .engine e => .ok (ofReport e.report.render)
  | .http status text =>
    if status == 404 then .ok (ofReport ((unknownDocument tool.subject).render (some 2)))
    else .error (.reported tool.name (.http status text))
  | .connection text => .error (.gaveUp tool.name attempts (.connection text))
  | .transient text => .error (.passed (.transient text))
  | .credentials text => .error (.passed (.credentials text))
  | failure => .error (.reported tool.name failure)

/-- Whether a failure is worth another attempt. -/
def isBroken : Failure → Bool
  | .connection _ => true
  | _ => false

variable {I : Interface} {α : Type}

/-- Runs a tool that has been tried `done` times, and again while its connection breaks and
retries are left. -/
def attempt (tool : GuardedTool) (ofReport : String → α) (pause : Nat → Program I Unit)
    (work : Action I α) (done : Nat) : Nat → Program I (Except ToolFailure α)
  | 0 => do
    match ← work.run with
    | .ok a => return .ok a
    | .error failure => return tool.settle ofReport (done + 1) failure
  | left + 1 => do
    match ← work.run with
    | .ok a => return .ok a
    | .error failure =>
      if isBroken failure then
        pause (delay done)
        attempt tool ofReport pause work (done + 1) left
      else return tool.settle ofReport (done + 1) failure

/-- Runs a tool. `ofReport` makes an answer out of a report, `pause` waits for some seconds. -/
def run (tool : GuardedTool) (ofReport : String → α) (pause : Nat → Program I Unit)
    (work : Action I α) : Program I (Except ToolFailure α) :=
  tool.attempt ofReport pause work 0 (if tool.readOnly then maxRetries else 0)

end GuardedTool

end DocTemplate
