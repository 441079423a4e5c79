import DocTemplate.Text.Blank
import DocTemplate.Text.CaseTable

/-!
# Numerals

Reading an integer that a person typed, and writing a count with its thousands set apart.

An integer is read from the decimal digits of any script. Blanks around it do not count, a sign may
stand in front, and a single underscore may stand between two digits. There is a limit on the number
of digits, and it is looked at before what stands behind them.
-/

namespace DocTemplate.Text

/-- The codes of the digits zero of all scripts; the digits one to nine follow each of them. -/
def zeroDigits : List Nat :=
  [0x30, 0x660, 0x6f0, 0x7c0, 0x966, 0x9e6, 0xa66, 0xae6, 0xb66, 0xbe6, 0xc66, 0xce6, 0xd66,
   0xde6, 0xe50, 0xed0, 0xf20, 0x1040, 0x1090, 0x17e0, 0x1810, 0x1946, 0x19d0, 0x1a80, 0x1a90,
   0x1b50, 0x1bb0, 0x1c40, 0x1c50, 0xa620, 0xa8d0, 0xa900, 0xa9d0, 0xa9f0, 0xaa50, 0xabf0,
   0xff10, 0x104a0, 0x10d30, 0x11066, 0x110f0, 0x11136, 0x111d0, 0x112f0, 0x11450, 0x114d0,
   0x11650, 0x116c0, 0x11730, 0x118e0, 0x11950, 0x11c50, 0x11d50, 0x11da0, 0x16a60, 0x16ac0,
   0x16b50, 0x1d7ce, 0x1d7d8, 0x1d7e2, 0x1d7ec, 0x1d7f6, 0x1e140, 0x1e2f0, 0x1e950, 0x1fbf0]

/-- The value of a decimal digit of any script. -/
def digitValue (c : Char) : Option Nat :=
  (zeroDigits.find? fun z => z ≤ c.toNat && c.toNat < z + 10).map (c.toNat - ·)

/-- Why a text is no numeral. -/
inductive NumeralError where
  | malformed
  /-- There are so many digits, more than are allowed. -/
  | tooLong (digits : Nat)
  deriving DecidableEq, Repr

/-- How many digits a numeral may have. -/
def maxDigits : Nat := 4300

/-- Blanks that may stand around a numeral: all but the separators U+001C to U+001F. -/
def isNumeralBlank (c : Char) : Bool :=
  isBlank c && !(0x1c ≤ c.toNat && c.toNat ≤ 0x1f)

/-- Whether a character is a digit or stands between digits. -/
def isNumeralPart (c : Char) : Bool :=
  (digitValue c).isSome || c == '_'

/-- Whether every underscore in a text stands between two other characters; `afterDigit` says
whether one that is none stands in front of the text. -/
def separated (afterDigit : Bool) : Text → Bool
  | [] => true
  | '_' :: rest => afterDigit && !rest.isEmpty && separated false rest
  | _ :: rest => separated true rest

/-- The natural number at the start of a text behind which only blanks stand. -/
def readNatural (t : Text) : Except NumeralError Nat :=
  let body := t.takeWhile isNumeralPart
  let digits := body.filterMap digitValue
  if !separated false body then .error .malformed
  else if maxDigits < digits.length then .error (.tooLong digits.length)
  else if digits.isEmpty then .error .malformed
  else if (t.dropWhile isNumeralPart).all isNumeralBlank then
    .ok (digits.foldl (fun n d => n * 10 + d) 0)
  else .error .malformed

/-- The integer that a text stands for. -/
def readInteger (t : Text) : Except NumeralError Int :=
  match t.dropWhile isNumeralBlank with
  | '-' :: rest => (readNatural rest).map fun n => -(n : Int)
  | '+' :: rest => (readNatural rest).map Int.ofNat
  | rest => (readNatural rest).map Int.ofNat

/-- The decimal numeral of an integer. -/
def ofInt : Int → Text
  | .ofNat n => Nat.toDigits 10 n
  | .negSucc n => '-' :: Nat.toDigits 10 (n + 1)

/-- Digits, least significant first, with a comma after every third. `run` counts the digits since
the last comma. -/
def groupDigits (run : Nat) : Text → Text
  | [] => []
  | d :: rest => if run = 3 then ',' :: d :: groupDigits 1 rest else d :: groupDigits (run + 1) rest

/-- The decimal numeral of a number, a comma between its thousands. -/
def grouped (n : Nat) : Text :=
  (groupDigits 0 (Nat.toDigits 10 n).reverse).reverse

example : (readInteger ['-', '1', '_', '2']).toOption = some (-12) := by decide

example : (readInteger ['1', '_', '_', '2']).toOption = none := by decide

example : grouped 1200002 = ['1', ',', '2', '0', '0', ',', '0', '0', '2'] := by decide

end DocTemplate.Text
