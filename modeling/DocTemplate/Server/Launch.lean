import DocTemplate.Server.CommandLine

/-!
# Launching the server

From the arguments and the current transport to the server that is to be run, and what the server
says about its health.
-/

namespace DocTemplate

/-- A server that is to be run. -/
inductive ServerRun where
  /-- Requests come in on standard input. -/
  | stdio
  /-- Requests come in over HTTP. -/
  | http (host : String) (port : Int)
  deriving DecidableEq, Repr

namespace ServerRun

/-- The server for a transport. -/
def ofTransport (mode : String) (settings : Settings) : ServerRun :=
  if mode == "streamable-http" then .http "0.0.0.0" settings.port else .stdio

/-- The record of a server. -/
def toJson : ServerRun → Json
  | stdio => .obj []
  | http host port =>
    .obj [("transport", .str "streamable-http"), ("host", .str host), ("port", .int port)]

end ServerRun

/-- How a launch ends. -/
inductive Launch where
  /-- The process ends with this code at once. -/
  | exit (code : Nat)
  /-- The transport in force cannot be chosen. -/
  | refused (e : SettingsError)
  /-- A server is run with this transport. -/
  | run (mode : String) (server : ServerRun)
  deriving DecidableEq, Repr

/-- The exit code after help was shown, or after the server was interrupted. -/
def exitOk : Nat := 0

/-- The exit code for arguments that make no sense. -/
def exitUsage : Nat := 2

/-- The transport that is chosen while `mode` is in force. -/
def CommandLine.Choice.transport (mode : String) : CommandLine.Choice → Except SettingsError String
  | .usual => chooseTransport mode
  | .named name => chooseTransport name
  | .nothing => (Json.arr []).transport

/-- Launches the server while the transport `mode` is in force. -/
def launch (settings : Settings) (mode : String) (arguments : List String) : Launch :=
  match CommandLine.read arguments with
  | .help => .exit exitOk
  | .refuse => .exit exitUsage
  | .start chosen =>
    match chosen.transport mode with
    | .ok mode => .run mode (.ofTransport mode settings)
    | .error e => .refused e

/-- The transport in force after a launch. -/
def Launch.mode (before : String) : Launch → String
  | .run mode _ => mode
  | _ => before

/-- The status of a healthy server. -/
def healthStatus : Nat := 200

/-- What the server says about its health. -/
def healthReport (mode : String) : Json :=
  .obj [("status", .str "healthy"), ("service", .str "docs-templates"), ("transport", .str mode)]

end DocTemplate
