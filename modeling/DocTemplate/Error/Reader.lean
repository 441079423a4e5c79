import DocTemplate.Error
import DocTemplate.Section.Entry

/-!
# Errors from data

Builds errors and reports from JSON data: an error of the engine from its kind and a list of
arguments, a report from its fields, and the indentation of a report in text.
-/

namespace DocTemplate

/-- What the unnamed issue of a tag is. -/
def usualIssue : Json := .str "unterminated"

namespace EngineError

/-- The names of the arguments that an error of a kind has to be given, and of those that it can be
given besides. -/
def parameters : String → List String × List String
  | "MalformedMarkerError" => (["section_name", "position"], ["issue"])
  | "UnknownSectionNameError" => (["section_name", "available_sections"], [])
  | "StaleSnapshotError" => (["expected_revision", "received_revision"], ["index"])
  | "CellNotFoundError" => (["row", "column", "rows", "columns"], [])
  | "TableNotFoundError" => (["insertion_index", "total_tables"], [])
  | _ => (["kind"], ["start_index"])

/-- Refuses too few or too many arguments. The error itself counts among them. -/
def checkArguments (kind : String) (arguments : List Json) : Except Fault Unit :=
  let (required, optional) := parameters kind
  let least := required.length + 1
  let most := least + optional.length
  let callee := kind ++ ".__init__"
  if most < arguments.length + 1 then
    .error (.surplusArguments callee least most (arguments.length + 1))
  else
    match required.drop arguments.length with
    | [] => .ok ()
    | missing => .error (.missingArguments callee missing)

/-- The error of a kind with some arguments. Sections that have data are sorted by name. -/
def ofArguments (kind : String) (arguments : List Json) : Except Fault EngineError := do
  checkArguments kind arguments
  let argument := fun n => arguments.getD n .null
  match kind with
  | "MalformedMarkerError" =>
    return .malformedMarker (argument 0) (argument 1) (arguments.getD 2 usualIssue)
  | "UnknownSectionNameError" =>
    return .unknownSection (argument 0) (← Json.sorted (← (argument 1).elements))
  | "StaleSnapshotError" => return .staleSnapshot (argument 0) (argument 1) (argument 2)
  | "CellNotFoundError" =>
    return .cellNotFound (argument 0) (argument 1) (argument 2) (argument 3)
  | "TableNotFoundError" => return .tableNotFound (argument 0) (argument 1)
  | _ => return .unsupportedElement (argument 0) (argument 1)

/-- What an error keeps of its arguments, by name. -/
def attributes : EngineError → List (String × Json)
  | malformedMarker sectionName position _ =>
    [("section_name", sectionName), ("position", position)]
  | unknownSection sectionName _ => [("section_name", sectionName)]
  | cellNotFound row column _ _ => [("row", row), ("column", column)]
  | unsupportedElement kind _ => [("kind", kind)]
  | _ => []

end EngineError

/-- The part of a context under a name. A null part is none. -/
def contextPart (fields : List (String × Json)) (name : String) : Option Json :=
  match fields.lookup name with
  | some .null => none
  | part => part

/-- Reads a context from its parts by name. -/
def ReportContext.ofJson (j : Json) : Except Fault ReportContext :=
  match j with
  | .obj fields =>
    let known := ["received", "expected", "available_sections", "possible_causes"]
    match fields.find? fun f => !known.contains f.1 with
    | some (name, _) => .error (.unknownArgument "ErrorContext.__init__" name)
    | none => .ok {
        received := contextPart fields "received"
        expected := contextPart fields "expected"
        availableSections := contextPart fields "available_sections"
        possibleCauses := contextPart fields "possible_causes" }
  | other => .error (.notIterable other.kind)

/-- Reads a report from its fields by name. One that is absent takes its usual value. -/
def Report.ofJson (j : Json) : Except Fault Report :=
  match j with
  | .obj fields => do
    let known := ["error", "code", "message", "reason", "suggestion", "fatal", "context"]
    match fields.find? fun f => !known.contains f.1 with
    | some (name, _) => throw (.unknownArgument "StructuredError.__init__" name)
    | none =>
      let usual : Report := {}
      let field := fun name default => (fields.lookup name).getD default
      let context ← match contextPart fields "context" with
        | some context => some <$> ReportContext.ofJson context
        | none => pure none
      return {
        error := field "error" usual.error
        code := field "code" usual.code
        message := field "message" usual.message
        reason := field "reason" usual.reason
        suggestion := field "suggestion" usual.suggestion
        fatal := field "fatal" usual.fatal
        context := context }
  | other => .error (.notIterable other.kind)

/-- The indentation that a value asks for: none, so many spaces, or a text of its own. -/
def Json.indentation (j : Json) : Except Fault (Option Text) :=
  match j with
  | .null => .ok none
  | .str unit => .ok (some unit.toList)
  | other =>
    match other.number? with
    | some n => (Entry.checkWidth n.value).map fun _ => some (List.replicate n.value.toNat ' ')
    | none => .error (.operands "*" .str other.kind)

end DocTemplate
