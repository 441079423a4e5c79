import DocTemplate.Failure
import DocTemplate.Folder
import DocTemplate.Json.Relaxed
import DocTemplate.Service.Expiry

/-!
# Credentials

The stored credentials that the clients of the service are made with, and the clients. Credentials
are read from a token file when clients are first asked for; the clients are then kept. A token file
may say when its access token expires, and has to say it in the right form.
-/

namespace DocTemplate

/-- What stands at a path. -/
inductive StoredFile where
  | missing
  | directory
  | text (content : Text)
  deriving DecidableEq, Repr

/-- What stands at a path, followed from a folder. Where a path leads nowhere nothing stands. -/
def Folder.stored (f : Folder Text) (path : String) : StoredFile :=
  match f.locate path with
  | .error _ => .missing
  | .ok .outside => .directory
  | .ok (.inside names) =>
    match f.entry? names with
    | some (some content) => .text content
    | _ => .directory

/-- The access that credentials are good for. -/
def accessScopes : List String :=
  ["https://www.googleapis.com/auth/documents", "https://www.googleapis.com/auth/drive"]

/-- The credentials of a user. -/
structure Credentials where
  clientId : Json
  clientSecret : Json
  refreshToken : Json

namespace Credentials

/-- The failure for a path at which nothing stands. -/
def missingFile (path : String) : Failure :=
  .credentials (s!"No stored Google credentials at '{path}'. " ++
    "Set GOOGLE_TOKEN_FILE to an authorized-user token JSON file.")

/-- The failure for a file that holds no credentials. -/
def unreadable (path : String) : Failure :=
  .credentials s!"Could not load credentials from '{path}': "

/-- The value of a field. Of fields with one name the last counts. -/
def lastField (fields : List (String × Json)) (name : String) : Option Json :=
  fields.reverse.lookup name

/-- The credentials that a record holds. -/
def ofFields? (fields : List (String × Json)) : Option Credentials := do
  let clientId ← lastField fields "client_id"
  let clientSecret ← lastField fields "client_secret"
  let refreshToken ← lastField fields "refresh_token"
  return { clientId, clientSecret, refreshToken }

/-- Whether the time of expiry is in the right form. One that is absent or empty is. -/
def hasValidExpiry (fields : List (String × Json)) : Except Fault Bool :=
  match lastField fields "expiry" with
  | none => .ok true
  | some (.str time) => .ok (time.isEmpty || Expiry.isValid time.toList)
  | some other => if other.isGiven then .error (.lacks other.kind "rstrip") else .ok true

/-- The credentials in the text of a file at a path. -/
def ofText (path : String) (content : Text) : Except Failure Credentials :=
  match Json.readFile content with
  | .error .malformed => .error (unreadable path)
  | .error .tooDeep => .error (.fault .tooDeep)
  | .ok (.obj fields) =>
    match ofFields? fields, hasValidExpiry fields with
    | none, _ => .error (unreadable path)
    | some _, .error f => .error (.fault f)
    | some credentials, .ok valid => if valid then .ok credentials else .error (unreadable path)
  | .ok other => .error (.fault (.lacks other.kind "keys"))

/-- The credentials that are stored at a path. -/
def load (path : String) : StoredFile → Except Failure Credentials
  | .missing => .error (missingFile path)
  | .directory => .error (unreadable path)
  | .text content => ofText path content

end Credentials

/-- A client of the service. -/
structure Client where
  service : String
  version : String
  clientId : Json
  /-- Whether descriptions of the service are kept between runs. -/
  keepsDescription : Bool := false

/-- The clients that are made with some credentials: one for documents and one for files. -/
def Credentials.clients (c : Credentials) : List Client :=
  [{ service := "docs", version := "v1", clientId := c.clientId },
    { service := "drive", version := "v3", clientId := c.clientId }]

/-- The clients to use: those that were made before, or new ones. -/
def clientsFor (kept : Option (List Client)) (path : String) (file : StoredFile) :
    Except Failure (List Client) :=
  match kept with
  | some clients => .ok clients
  | none => (Credentials.load path file).map Credentials.clients

end DocTemplate
