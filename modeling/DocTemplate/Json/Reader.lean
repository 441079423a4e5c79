import DocTemplate.Json.Basic

/-!
# Reading JSON

Reads the text of a JSON value whose numbers are integers. Blank are the space, the tab and the
two line ends. A string may not hold a bare control character; of escaped UTF-16 code units, a
high surrogate and the low one after it make one character, and no other surrogate may occur.

Values are read by recursive descent. Each step down is paid for from a budget that is twice the
length of the text, so it never runs out before the text does. A reader may also be told how deeply
values may be nested (`readNested`); a text that goes deeper is refused where it does so, unless it
is malformed before.
-/

namespace DocTemplate.Json

/-- Whether a character may stand between two parts of a value. -/
def isSpace (c : Char) : Bool :=
  c = ' ' || c = '\t' || c = '\n' || c = '\r'

/-- A text without the space in front. -/
def skipSpace (t : Text) : Text :=
  t.dropWhile isSpace

/-! ## Strings -/

/-- The number that four hexadecimal digits stand for. -/
def readUnit (a b c d : Char) : Option Nat := do
  let a ← Text.hexValue a
  let b ← Text.hexValue b
  let c ← Text.hexValue c
  let d ← Text.hexValue d
  return ((a * 16 + b) * 16 + c) * 16 + d

/-- The character that a backslash and this one stand for. -/
def escaped : Char → Option Char
  | '"' => some '"'
  | '\\' => some '\\'
  | '/' => some '/'
  | 'b' => some '\x08'
  | 'f' => some '\x0c'
  | 'n' => some '\n'
  | 'r' => some '\r'
  | 't' => some '\t'
  | _ => none

/-- Reads the rest of a string up to its closing quote: the codes of its characters, escaped
surrogates being codes of their own, and what follows the string. -/
def readCodes : Text → Option (List Nat × Text)
  | [] => none
  | '"' :: rest => some ([], rest)
  | '\\' :: 'u' :: a :: b :: c :: d :: rest => do
    let unit ← readUnit a b c d
    let (codes, rest) ← readCodes rest
    return (unit :: codes, rest)
  | '\\' :: e :: rest => do
    let c ← escaped e
    let (codes, rest) ← readCodes rest
    return (c.toNat :: codes, rest)
  | c :: rest =>
    if c.toNat < 0x20 then none
    else do
      let (codes, rest) ← readCodes rest
      return (c.toNat :: codes, rest)

/-- Joins each pair of surrogates to one character. -/
def joinCodes : List Nat → Option Text
  | [] => some []
  | [n] => if 0xd800 ≤ n ∧ n < 0xe000 then none else some [Char.ofNat n]
  | n :: m :: rest =>
    if 0xd800 ≤ n ∧ n < 0xdc00 ∧ 0xdc00 ≤ m ∧ m < 0xe000 then
      (joinCodes rest).map (Char.ofNat (0x10000 + (n - 0xd800) * 0x400 + (m - 0xdc00)) :: ·)
    else if 0xd800 ≤ n ∧ n < 0xe000 then none
    else (joinCodes (m :: rest)).map (Char.ofNat n :: ·)

/-- Reads a string from behind its opening quote. -/
def readString (t : Text) : Option (String × Text) := do
  let (codes, rest) ← readCodes t
  let s ← joinCodes codes
  return (String.ofList s, rest)

/-! ## Numbers -/

/-- The number that ASCII digits stand for. -/
def digitsValue (t : Text) : Nat :=
  t.foldl (fun n c => n * 10 + (c.toNat - 48)) 0

/-- Reads a natural number, which has no zero in front of another digit. -/
def readNat (t : Text) : Option (Nat × Text) :=
  match t with
  | '0' :: rest => some (0, rest)
  | _ =>
    match t.takeWhile Char.isDigit with
    | [] => none
    | digits => some (digitsValue digits, t.dropWhile Char.isDigit)

/-- Reads an integer. -/
def readInt (t : Text) : Option (Int × Text) :=
  match t with
  | '-' :: rest => (readNat rest).map fun (n, rest) => (-(n : Int), rest)
  | _ => (readNat t).map fun (n, rest) => ((n : Int), rest)

/-! ## Values -/

/-- Why a text is not read as a value. -/
inductive ReadError where
  /-- A character stands where no value goes on with it. -/
  | malformed
  /-- An array or object is opened inside too many others. -/
  | tooDeep
  deriving DecidableEq, Repr

/-- A part of a value that has to be there. -/
def expected {α : Type} : Option α → Except ReadError α
  | some part => .ok part
  | none => .error .malformed

mutual

/-- Reads a value that starts with the first character. Inside of it arrays and objects are opened
up to `levels` deep. -/
def readValue : Nat → Nat → Text → Except ReadError (Json × Text)
  | 0, _, _ => .error .malformed
  | budget + 1, levels, t =>
    match t with
    | '[' :: rest =>
      match levels with
      | 0 => .error .tooDeep
      | levels + 1 =>
        match skipSpace rest with
        | ']' :: rest => .ok (.arr [], rest)
        | rest => (readItems budget levels rest).map fun (items, rest) => (.arr items, rest)
    | '\x7b' :: rest =>
      match levels with
      | 0 => .error .tooDeep
      | levels + 1 =>
        match skipSpace rest with
        | '\x7d' :: rest => .ok (.obj [], rest)
        | rest => (readFields budget levels rest).map fun (fields, rest) => (.obj fields, rest)
    | '"' :: rest => (expected (readString rest)).map fun (s, rest) => (.str s, rest)
    | 'n' :: 'u' :: 'l' :: 'l' :: rest => .ok (.null, rest)
    | 't' :: 'r' :: 'u' :: 'e' :: rest => .ok (.bool true, rest)
    | 'f' :: 'a' :: 'l' :: 's' :: 'e' :: rest => .ok (.bool false, rest)
    | t => (expected (readInt t)).map fun (n, rest) => (.int n, rest)

/-- Reads the items of an array, at least one, and its closing bracket. -/
def readItems : Nat → Nat → Text → Except ReadError (List Json × Text)
  | 0, _, _ => .error .malformed
  | budget + 1, levels, t => do
    let (v, rest) ← readValue budget levels t
    match skipSpace rest with
    | ']' :: rest => return ([v], rest)
    | ',' :: rest =>
      let (items, rest) ← readItems budget levels (skipSpace rest)
      return (v :: items, rest)
    | _ => .error .malformed

/-- Reads the fields of an object, at least one, and its closing brace. -/
def readFields : Nat → Nat → Text → Except ReadError (List (String × Json) × Text)
  | 0, _, _ => .error .malformed
  | budget + 1, levels, t => do
    let '"' :: rest := t | .error .malformed
    let (k, rest) ← expected (readString rest)
    let ':' :: rest := skipSpace rest | .error .malformed
    let (v, rest) ← readValue budget levels (skipSpace rest)
    match skipSpace rest with
    | '\x7d' :: rest => return ([(k, v)], rest)
    | ',' :: rest =>
      let (fields, rest) ← readFields budget levels (skipSpace rest)
      return ((k, v) :: fields, rest)
    | _ => .error .malformed

end

/-- The value that a text stands for, if it is nested up to `levels` deep. A text is read from its
start, so of two faults the first one counts. -/
def readNested (levels : Nat) (t : Text) : Except ReadError Json := do
  let (v, rest) ← readValue (2 * t.length + 2) levels (skipSpace t)
  if (skipSpace rest).isEmpty then return v else .error .malformed

/-- The value that a text stands for. It cannot be nested deeper than the text is long. -/
def read? (t : Text) : Option Json :=
  (readNested t.length t).toOption

example : readNested 1 ['[', '1', ',', '[', ']'] = .error .tooDeep := by rfl

example : readNested 1 ['[', '1', ' ', '[', ']'] = .error .malformed := by rfl

end DocTemplate.Json
