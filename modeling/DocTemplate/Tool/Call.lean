import DocTemplate.Tool.Basic
import DocTemplate.Tool.Guard

/-!
# Calling tools

The tools by name, each with the arguments that it has to be given and those that it can be given.
A call with an argument that the tool does not know, or without one that it needs, is a fault of the
call. `ToolCall.run` runs a call under guard.
-/

namespace DocTemplate

/-- The tools, by name. -/
inductive ToolName where
  | scanTemplate | fillTemplate | insertTables | generate | exportPdf
  deriving DecidableEq, Repr

namespace ToolName

/-- The name of a tool. -/
def name : ToolName → String
  | scanTemplate => "scan_template"
  | fillTemplate => "fill_template_variables"
  | insertTables => "insert_section_tables"
  | generate => "generate_document_from_template"
  | exportPdf => "export_document_pdf"

/-- All tools. -/
def all : List ToolName :=
  [scanTemplate, fillTemplate, insertTables, generate, exportPdf]

/-- Whether a tool leaves all documents as they are. -/
def readOnly : ToolName → Bool
  | scanTemplate => true
  | exportPdf => true
  | _ => false

/-- The arguments that a tool has to be given. -/
def required : ToolName → List String
  | scanTemplate => ["document_id"]
  | fillTemplate => ["document_id", "values"]
  | insertTables => ["document_id", "sections"]
  | generate => ["template_id", "title"]
  | exportPdf => ["document_id", "output_path"]

/-- The arguments that a tool can be given besides. They are null unless they are given. -/
def optional : ToolName → List String
  | scanTemplate => ["tab_id"]
  | fillTemplate => ["asset_sections", "tab_id"]
  | insertTables => ["tab_id"]
  | generate => ["values", "asset_sections", "sections"]
  | exportPdf => []

end ToolName

/-- A call of a tool: its arguments by name. -/
structure ToolCall where
  tool : ToolName
  arguments : List (String × Json)

namespace ToolCall

/-- An argument, null if it is not given. -/
def argument (call : ToolCall) (name : String) : Json :=
  (call.arguments.lookup name).getD .null

/-- Refuses arguments that the tool does not know, and calls that lack some. -/
def check (call : ToolCall) : Except Fault Unit :=
  let known := call.tool.required ++ call.tool.optional
  match call.arguments.find? fun a => !known.contains a.1 with
  | some (name, _) => .error (.unknownArgument call.tool.name name)
  | none =>
    match call.tool.required.filter fun name => (call.arguments.lookup name).isNone with
    | [] => .ok ()
    | missing => .error (.missingArguments call.tool.name missing)

/-- The work of a tool with the arguments of a call. -/
def work (options : FillOptions) (call : ToolCall) : Action documentService String := do
  Tool.checked call.check
  let inTab := { options with tabId := call.argument "tab_id" }
  let documentId := call.argument "document_id"
  let values := call.argument "values"
  let assets := call.argument "asset_sections"
  let sections := call.argument "sections"
  match call.tool with
  | .scanTemplate => Tool.scanTemplate inTab documentId
  | .fillTemplate => Tool.fillTemplate inTab documentId values assets
  | .insertTables => Tool.insertTables inTab documentId sections
  | .generate =>
    Tool.generate options (call.argument "template_id") (call.argument "title") values assets
      sections
  | .exportPdf => Tool.exportPdf documentId (call.argument "output_path")

/-- The guard of a call. -/
def guarded (call : ToolCall) : GuardedTool :=
  { name := call.tool.name
    readOnly := call.tool.readOnly
    subject := subjectOf (call.arguments.lookup "document_id")
      (call.arguments.lookup "template_id") }

/-- Runs a tool under guard. -/
def run (options : FillOptions) (call : ToolCall) :
    Program documentService (Except ToolFailure String) :=
  call.guarded.run id (fun seconds => Program.request (I := documentService) (.pause seconds))
    (call.work options)

end ToolCall

end DocTemplate
