import DocTemplate.Server.Launch

/-!
# The program

Reads the environment and the arguments, and reports the server that they ask for. What is decided
here is decided in `DocTemplate.launch`; serving itself is the work of the host.
-/

namespace DocTemplate

/-- The variables that are read from the environment. -/
def variableNames : List String :=
  ["HOME", "GOOGLE_TOKEN_FILE", "TEMPLATE_PORT", "LOG_LEVEL", "ASSET_SECTION_MIN_PADDING",
    "SECTION_TITLE_FONT_SIZE", "SECTION_BODY_FONT_SIZE", "TEMPLATE_TRANSPORT"]

/-- The environment of the process. -/
def readEnvironment : IO Environment := do
  let entries ← variableNames.mapM fun name => do
    let value ← IO.getEnv name
    return (name, value)
  return fun name => (entries.lookup name).join

/-- Reports a failure and ends with code 1. -/
def fail (e : SettingsError) : IO UInt32 := do
  IO.eprintln e.message
  return 1

end DocTemplate

open DocTemplate in
/-- Reports the server that the environment and the arguments ask for. -/
def main (arguments : List String) : IO UInt32 := do
  let environment ← readEnvironment
  match Settings.ofEnvironment environment with
  | .error e => fail e
  | .ok settings =>
    match launch settings environment.transport arguments with
    | .exit code => return code.toUInt32
    | .refused e => fail e
    | .run _ server =>
      IO.println (server.toJson.render none)
      return 0
