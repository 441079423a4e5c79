import DocTemplate.Template.Batch
import DocTemplate.Text.Numeral

/-!
# Settings

What the server takes from its environment: where the credentials are stored, the port, how much is
logged, how templates are filled, and the transport that it starts with.
-/

namespace DocTemplate

/-- Why settings are refused. -/
inductive SettingsError where
  /-- A number is expected. -/
  | notInteger (text : Text)
  /-- A number has more digits than are read. -/
  | tooManyDigits (digits : Nat)
  /-- There is no such transport. -/
  | unknownTransport (mode : String)
  deriving DecidableEq, Repr

/-- The transports that can be chosen. -/
def transports : List String :=
  ["stdio", "streamable-http"]

/-- How much of a refused text is quoted, its quotes and escapes included. -/
def quotedLength : Nat := 200

/-- The refusal in words. -/
def SettingsError.message : SettingsError → String
  | notInteger text =>
    let quoted := String.ofList ((Text.quoted text).take quotedLength)
    s!"invalid literal for int() with base 10: {quoted}"
  | tooManyDigits digits =>
    s!"Exceeds the limit ({Text.maxDigits} digits) for integer string conversion: " ++
      s!"value has {digits} digits; use sys.set_int_max_str_digits() to increase the limit"
  | unknownTransport mode =>
    s!"Invalid transport '{mode}'. Use one of: " ++ ", ".intercalate transports

/-- The settings of the server. -/
structure Settings where
  tokenFile : String
  port : Int
  logLevel : String
  minPadding : Int
  titleFontSize : Int
  bodyFontSize : Int
  deriving Repr

/-- What an environment says about a name. -/
abbrev Environment := String → Option String

/-- The number under a name. -/
def Environment.integer (environment : Environment) (name : String) (default : Int) :
    Except SettingsError Int :=
  match environment name with
  | none => .ok default
  | some s =>
    match Text.readInteger s.toList with
    | .ok n => .ok n
    | .error .malformed => .error (.notInteger s.toList)
    | .error (.tooLong digits) => .error (.tooManyDigits digits)

namespace Settings

/-- The settings that an environment gives. -/
def ofEnvironment (environment : Environment) : Except SettingsError Settings := do
  let home := (environment "HOME").getD ""
  let port ← environment.integer "TEMPLATE_PORT" 8000
  let minPadding ← environment.integer "ASSET_SECTION_MIN_PADDING" 30
  let titleFontSize ← environment.integer "SECTION_TITLE_FONT_SIZE" 14
  let bodyFontSize ← environment.integer "SECTION_BODY_FONT_SIZE" 12
  return {
    tokenFile := (environment "GOOGLE_TOKEN_FILE").getD (home ++ "/.docs_templates/token.json")
    port, minPadding, titleFontSize, bodyFontSize
    logLevel := (environment "LOG_LEVEL").getD "INFO" }

/-- How templates are filled under these settings. -/
def options (s : Settings) : FillOptions :=
  { minPadding := .int s.minPadding
    style := { titleFontSize := .int s.titleFontSize, bodyFontSize := .int s.bodyFontSize } }

end Settings

/-- The transport that an environment starts with. It is not checked. -/
def Environment.transport (environment : Environment) : String :=
  (environment "TEMPLATE_TRANSPORT").getD "stdio"

/-- The transport that is chosen, if there is one of this name. -/
def chooseTransport (mode : String) : Except SettingsError String :=
  if transports.contains mode then .ok mode else .error (.unknownTransport mode)

/-- The transport that a caller chooses. What is no string names none. -/
def Json.transport : Json → Except SettingsError String
  | .str mode => chooseTransport mode
  | other => .error (.unknownTransport other.display)

end DocTemplate
