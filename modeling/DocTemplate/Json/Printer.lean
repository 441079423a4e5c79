import DocTemplate.Json.Basic

/-!
# Writing JSON

The text of a JSON value. Without an indentation it stands on one line, with `", "` between items
and `": "` after field names. With an indentation every item and field stands on a line of its
own, behind the indentation repeated as often as it is deep, and empty arrays and objects stay
closed. Only characters from the space to the tilde are written as they are; all others are escaped
by their UTF-16 code units.
-/

namespace DocTemplate.Json

/-- The escape of one UTF-16 code unit. -/
def escapeUnit (n : Nat) : Text :=
  ['\\', 'u'] ++ Text.hex 4 n

/-- A character inside a JSON string. -/
def escapeChar (c : Char) : Text :=
  if c = '"' then ['\\', '"']
  else if c = '\\' then ['\\', '\\']
  else if c = '\n' then ['\\', 'n']
  else if c = '\r' then ['\\', 'r']
  else if c = '\t' then ['\\', 't']
  else if c = '\x0c' then ['\\', 'f']
  else if c = '\x08' then ['\\', 'b']
  else if 0x20 ≤ c.toNat ∧ c.toNat ≤ 0x7e then [c]
  else if c.toNat < 0x10000 then escapeUnit c.toNat
  else
    escapeUnit (0xd800 + (c.toNat - 0x10000) / 0x400) ++
      escapeUnit (0xdc00 + (c.toNat - 0x10000) % 0x400)

/-- A JSON string. -/
def writeString (s : String) : Text :=
  ['"'] ++ s.toList.flatMap escapeChar ++ ['"']

/-- The start of a line at some depth, if lines are used at all. -/
def newline (indent : Option Text) (depth : Nat) : Text :=
  match indent with
  | none => []
  | some unit => '\n' :: (List.replicate depth unit).flatten

/-- What stands between two items at some depth. -/
def between (indent : Option Text) (depth : Nat) : Text :=
  match indent with
  | none => [',', ' ']
  | some _ => ',' :: newline indent depth

mutual

/-- The text of a value that stands at some depth. -/
def write (indent : Option Text) (depth : Nat) : Json → Text
  | null => ['n', 'u', 'l', 'l']
  | bool true => ['t', 'r', 'u', 'e']
  | bool false => ['f', 'a', 'l', 's', 'e']
  | int n => Text.ofInt n
  | str s => writeString s
  | arr [] => ['[', ']']
  | arr (v :: rest) =>
    ['['] ++ newline indent (depth + 1) ++ write indent (depth + 1) v ++
      writeItems indent (depth + 1) rest ++ newline indent depth ++ [']']
  | obj [] => ['\x7b', '\x7d']
  | obj ((k, v) :: rest) =>
    ['\x7b'] ++ newline indent (depth + 1) ++ writeString k ++ [':', ' '] ++
      write indent (depth + 1) v ++ writeFields indent (depth + 1) rest ++ newline indent depth ++
      ['\x7d']

/-- The items of an array after its first one. -/
def writeItems (indent : Option Text) (depth : Nat) : List Json → Text
  | [] => []
  | v :: rest => between indent depth ++ write indent depth v ++ writeItems indent depth rest

/-- The fields of an object after its first one. -/
def writeFields (indent : Option Text) (depth : Nat) : List (String × Json) → Text
  | [] => []
  | (k, v) :: rest =>
    between indent depth ++ writeString k ++ [':', ' '] ++ write indent depth v ++
      writeFields indent depth rest

end

/-- The text of a value, on one line or indented. -/
def renderWith (indent : Option Text) (j : Json) : String :=
  String.ofList (write indent 0 j)

/-- The text of a value, on one line or with `indent` spaces for each level. -/
def render (indent : Option Nat) (j : Json) : String :=
  j.renderWith (indent.map fun n => List.replicate n ' ')

end DocTemplate.Json
