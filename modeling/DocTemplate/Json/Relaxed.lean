import DocTemplate.Json.Reader

/-!
# Reading JSON files

The JSON that files hold may have numbers with a fraction or an exponent, numbers that are not
finite, and strings with half of a surrogate pair. Such a text is first brought into the form that
`Json.readNested` reads (`relax`): of a number that is no integer it keeps whether it is other than
zero, as a truth value, and half of a pair becomes the replacement character. Two limits apply: an
integer with too many digits is not read, and values may not be nested too deeply.
-/

namespace DocTemplate.Json

/-- How deeply values may be nested. -/
def maxDepth : Nat := 985

/-! ## Numbers -/

/-- The digits of a fraction at the start of a text. -/
def fractionDigits : Text → Text
  | '.' :: rest => rest.takeWhile Char.isDigit
  | _ => []

/-- The exponent at the start of a text, and its length. -/
def readExponent : Text → Option (Int × Nat)
  | [] => none
  | e :: rest =>
    let (negative, sign) := match rest with
      | '-' :: _ => (true, 1)
      | '+' :: _ => (false, 1)
      | _ => (false, 0)
    if e != 'e' && e != 'E' then none
    else
      match (rest.drop sign).takeWhile Char.isDigit with
      | [] => none
      | digits =>
        let n : Int := digitsValue digits
        some (if negative then -n else n, 1 + sign + digits.length)

/-- The digits of an integer at the start of a text. A zero stands alone. -/
def wholeDigits : Text → Text
  | '0' :: _ => ['0']
  | t => t.takeWhile Char.isDigit

/-- Whether some digits, scaled by a power of ten, are a binary number of double precision other
than zero. The least such number is the power of two to -1074, and half of it rounds to zero. -/
def isNonzero (digits : Text) (scale : Int) : Bool :=
  let n := digitsValue digits
  if n == 0 || scale + digits.length ≤ -324 then false
  else 0 ≤ scale || Nat.pow 10 scale.natAbs < n * Nat.pow 2 1075

example : isNonzero ['3'] (-324) = true ∧ isNonzero ['2'] (-324) = false := by decide +kernel

/-- What is written for a number that has no other form: whether it is other than zero. -/
def truthText (b : Bool) : Text :=
  if b then ['t', 'r', 'u', 'e'] else ['f', 'a', 'l', 's', 'e']

/-- What is written for the number at the start of a text, if there is one, and how much of the text
it stands for. An integer that is too long is written as what no value starts with. -/
def relaxNumber (t : Text) : Option (Text × Nat) :=
  let sign := match t with
    | '-' :: _ => ['-']
    | _ => []
  let digits := wholeDigits (t.drop sign.length)
  let whole := sign ++ digits
  let fraction := fractionDigits (t.drop whole.length)
  let length := whole.length + if fraction.isEmpty then 0 else fraction.length + 1
  let exponent := readExponent (t.drop length)
  if digits.isEmpty then none
  else if fraction.isEmpty && exponent.isNone then
    if Text.maxDigits < digits.length then some (['?'], length) else some (whole, length)
  else
    let (scale, more) := exponent.getD (0, 0)
    some (truthText (isNonzero (digits ++ fraction) (scale - fraction.length)), length + more)

/-- The names of the numbers that are not finite. -/
def notFinite : List Text :=
  [['N', 'a', 'N'], ['I', 'n', 'f', 'i', 'n', 'i', 't', 'y'],
    ['-', 'I', 'n', 'f', 'i', 'n', 'i', 't', 'y']]

/-! ## Whole texts -/

/-- The start of a text in relaxed form. -/
structure RelaxedPart where
  /-- What is written for it. -/
  written : Text
  /-- How much of the text it stands for. -/
  length : Nat
  /-- Whether a string goes on behind it. -/
  inString : Bool

/-- The code unit that is escaped at the start of a text. -/
def escapedUnit? : Text → Option Nat
  | '\\' :: 'u' :: a :: b :: c :: d :: _ => readUnit a b c d
  | _ => none

/-- Whether a code unit is the first half of a surrogate pair. -/
def isHighHalf (n : Nat) : Bool :=
  0xd800 ≤ n && n < 0xdc00

/-- Whether a code unit is the second half of a surrogate pair. -/
def isLowHalf (n : Nat) : Bool :=
  0xdc00 ≤ n && n < 0xe000

/-- The relaxed form of an escape that stands for the code unit `n`. -/
def relaxEscape (t : Text) (n : Nat) : RelaxedPart :=
  if !isHighHalf n && !isLowHalf n then ⟨t.take 6, 6, true⟩
  else if isHighHalf n && (escapedUnit? (t.drop 6)).any isLowHalf then ⟨t.take 12, 12, true⟩
  else ⟨['\\', 'u', 'f', 'f', 'f', 'd'], 6, true⟩

/-- The relaxed form of the start of a text inside a string. -/
def relaxString (t : Text) : RelaxedPart :=
  match t with
  | '"' :: _ => ⟨['"'], 1, false⟩
  | '\\' :: _ =>
    match escapedUnit? t with
    | some n => relaxEscape t n
    | none => ⟨t.take 2, 2, true⟩
  | t => ⟨t.take 1, 1, true⟩

/-- The relaxed form of the start of a text outside of strings. -/
def relaxPart (t : Text) : RelaxedPart :=
  match t with
  | '"' :: _ => ⟨['"'], 1, true⟩
  | t =>
    match relaxNumber t with
    | some (written, length) => ⟨written, length, false⟩
    | none =>
      match notFinite.find? fun name => (Text.stripStart name t).isSome with
      | some name => ⟨truthText true, name.length, false⟩
      | none => ⟨t.take 1, 1, false⟩

/-- The relaxed form of a text; `skip` is how much of the last part is still to come. -/
def relaxFrom (inString : Bool) (skip : Nat) : Text → Text
  | [] => []
  | c :: rest =>
    match skip with
    | skip + 1 => relaxFrom inString skip rest
    | 0 =>
      let part := if inString then relaxString (c :: rest) else relaxPart (c :: rest)
      part.written ++ relaxFrom part.inString (part.length - 1) rest

/-- The relaxed form of a text. -/
def relax (t : Text) : Text :=
  relaxFrom false 0 t

/-- The value that the text of a file stands for. -/
def readFile (t : Text) : Except ReadError Json :=
  readNested maxDepth (relax t)

example : relax ['[', '1', '.', '5', ',', '0', '2', ']'] =
    ['[', 't', 'r', 'u', 'e', ',', '0', '2', ']'] := by decide +kernel

example : relax ['-', '0', 'e', '9'] = ['f', 'a', 'l', 's', 'e'] := by decide +kernel

end DocTemplate.Json
