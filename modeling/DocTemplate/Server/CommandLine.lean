import DocTemplate.Server.Settings

/-!
# The command line

Reads the arguments that the server is started with. There are two options: `--transport NAME`, also
written `--transport=NAME`, and `--help`, also written `-h`. Both long names may be cut short.

The arguments are read from left to right. A request for help, a bad name and a missing name stop
the reading where they stand; everything else that is not understood is noted, and refused at the
end. Nothing is read behind `--`. Where `--` is written as the name of a transport, no name is left,
and the choice is of nothing.

Main facts: `mem_transports_of_read` (a transport that was named can be chosen).
-/

namespace DocTemplate.CommandLine

/-- The transport that the arguments choose. -/
inductive Choice where
  /-- The usual one. -/
  | usual
  | named (name : String)
  /-- No name is left. -/
  | nothing
  deriving DecidableEq, Repr

/-- How reading the arguments ends. -/
inductive Outcome where
  /-- Start with a transport. -/
  | start (transport : Choice)
  /-- Show the help. -/
  | help
  /-- The arguments make no sense. -/
  | refuse
  deriving DecidableEq, Repr

/-- What one argument asks for. -/
inductive Argument where
  /-- The transport, with the name that is written into the argument. -/
  | transport (name : Option Text)
  | help
  /-- The end of the options. -/
  | separator
  /-- An option that is given something that it does not take. -/
  | malformed
  /-- The beginning of more than one option. -/
  | ambiguous
  | other
  deriving DecidableEq, Repr

/-- Whether `t` begins with `start`. -/
def begins (start t : Text) : Bool :=
  (Text.stripStart start t).isSome

/-- What a long option asks for: its name up to the first `=`, and what stands behind. -/
def longArgument (name : Text) (value : Option Text) : Argument :=
  let isHelp := begins name "--help".toList
  let isTransport := begins name "--transport".toList
  if isHelp && isTransport then .ambiguous
  else if isTransport then .transport value
  else if isHelp then (if value.isSome then .malformed else .help)
  else .other

/-- What an argument asks for that begins with `-h`, given what stands behind: help, unless there is
anything but more letters `h`. An `=` may stand in front of those. -/
def shortHelp (rest : Text) : Argument :=
  match rest with
  | '=' :: more => if !more.isEmpty && more.all (· == 'h') then .help else .malformed
  | more => if more.all (· == 'h') then .help else .malformed

/-- What one argument asks for. -/
def Argument.read (t : Text) : Argument :=
  match t with
  | ['-', '-'] => .separator
  | '-' :: '-' :: _ =>
    match t.dropWhile (· != '=') with
    | _ :: value => longArgument (t.takeWhile (· != '=')) (some value)
    | [] => longArgument t none
  | '-' :: 'h' :: rest => shortHelp rest
  | _ => .other

/-- The transport that a name written into an argument chooses. -/
def chooseWritten (name : Text) : Option Choice :=
  if name = ['-', '-'] then some .nothing
  else if transports.contains (String.ofList name) then some (.named (String.ofList name))
  else none

/-- Reads arguments. `chosen` is the transport that was named last, and `clean` whether all
arguments so far were understood. -/
def readFrom (chosen : Choice) (clean : Bool) : List String → Outcome
  | [] => if clean then .start chosen else .refuse
  | a :: rest =>
    match Argument.read a.toList with
    | .transport (some name) =>
      match chooseWritten name with
      | some choice => readFrom choice clean rest
      | none => .refuse
    | .transport none =>
      match rest with
      | name :: rest =>
        if transports.contains name then readFrom (.named name) clean rest else .refuse
      | [] => .refuse
    | .help => .help
    | .malformed => .refuse
    | .ambiguous => .refuse
    | .separator => .refuse
    | .other => readFrom chosen false rest

/-- Whether the arguments in front of the separator hold an ambiguous one. -/
def isAmbiguous (arguments : List String) : Bool :=
  ((arguments.map fun a => Argument.read a.toList).takeWhile (· ≠ .separator)).contains .ambiguous

/-- Reads the arguments of the server. Ambiguous ones are refused before any other is looked at. -/
def read (arguments : List String) : Outcome :=
  if isAmbiguous arguments then .refuse else readFrom .usual true arguments

/-! ## What is chosen can be chosen -/

theorem mem_transports_of_chooseWritten {name : Text} {mode : String}
    (h : chooseWritten name = some (.named mode)) : mode ∈ transports := by
  unfold chooseWritten at h
  split at h
  · simp at h
  · split at h
    · next known =>
      simp only [Option.some.injEq, Choice.named.injEq] at h
      exact h ▸ List.contains_iff_mem.1 known
    · simp at h

theorem mem_transports_of_readFrom {chosen : Choice} {clean : Bool} {arguments : List String}
    {mode : String} (h : readFrom chosen clean arguments = .start (.named mode)) :
    chosen = .named mode ∨ mode ∈ transports := by
  fun_induction readFrom chosen clean arguments with
  | case3 =>
    rename_i choice written ih
    rcases ih h with named | named
    · exact .inr (mem_transports_of_chooseWritten (named ▸ written))
    · exact .inr named
  | case5 =>
    rename_i known ih
    rcases ih h with named | named
    · exact .inr (by simpa [Choice.named.inj named] using known)
    · exact .inr named
  | _ => simp_all

theorem mem_transports_of_read {arguments : List String} {mode : String}
    (h : read arguments = .start (.named mode)) : mode ∈ transports := by
  unfold read at h
  split at h
  · simp at h
  · simpa using mem_transports_of_readFrom h

end DocTemplate.CommandLine
