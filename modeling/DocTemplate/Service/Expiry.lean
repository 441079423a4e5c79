import DocTemplate.Text.Numeral

/-!
# Times of expiry

The form in which credentials say when they expire: date and time with a `T` between them, such as
`2024-02-29T23:59:59`. Fields may lack the zero in front, apart from the year. A fraction of a
second and letters `Z` behind it do not count. Digits may be those of any script, except where only
some digits are possible.
-/

namespace DocTemplate.Expiry

/-- Whether a character is one of the ASCII digits from `least` to `most`. -/
def isBetween (least most : Char) (c : Char) : Bool :=
  least.toNat ≤ c.toNat && c.toNat ≤ most.toNat

/-- Whether a character is a digit of any script. -/
def isAnyDigit (c : Char) : Bool :=
  (Text.digitValue c).isSome

/-- Whether a text is the number of a month. -/
def isMonth : Text → Bool
  | ['1', d] => isBetween '0' '2' d
  | ['0', d] => isBetween '1' '9' d
  | [d] => isBetween '1' '9' d
  | _ => false

/-- Whether a text can be the number of a day. -/
def isDay : Text → Bool
  | ['3', d] => isBetween '0' '1' d
  | ['0', d] => isBetween '1' '9' d
  | [' ', d] => isBetween '1' '9' d
  | [t, d] => isBetween '1' '2' t && isAnyDigit d
  | [d] => isBetween '1' '9' d
  | _ => false

/-- Whether a text is the number of an hour. -/
def isHour : Text → Bool
  | ['2', d] => isBetween '0' '3' d
  | [t, d] => isBetween '0' '1' t && isAnyDigit d
  | [d] => isAnyDigit d
  | _ => false

/-- Whether a text is the number of a minute or second. -/
def isSixtieth : Text → Bool
  | [t, d] => isBetween '0' '5' t && isAnyDigit d
  | [d] => isAnyDigit d
  | _ => false

/-- The number that the digits of a text stand for. -/
def numberOf (t : Text) : Nat :=
  (t.filterMap Text.digitValue).foldl (fun n d => n * 10 + d) 0

/-- How many days a month has. -/
def daysIn (year month : Nat) : Nat :=
  if month = 2 then
    if year % 4 = 0 ∧ (year % 100 ≠ 0 ∨ year % 400 = 0) then 29 else 28
  else if month = 4 ∨ month = 6 ∨ month = 9 ∨ month = 11 then 30
  else 31

/-- A text up to the first character that `isMark` accepts, and what stands behind that
character. -/
def splitAt? (isMark : Char → Bool) (t : Text) : Option (Text × Text) :=
  match t.dropWhile (!isMark ·) with
  | [] => none
  | _ :: rest => some (t.takeWhile (!isMark ·), rest)

/-- Whether a text is a date and a time, in seconds. -/
def isTime (t : Text) : Bool :=
  (do
    let (year, t) ← splitAt? (· == '-') t
    let (month, t) ← splitAt? (· == '-') t
    let (day, t) ← splitAt? (fun c => c == 'T' || c == 't') t
    let (hour, t) ← splitAt? (· == ':') t
    let (minute, second) ← splitAt? (· == ':') t
    return year.length == 4 && year.all isAnyDigit && isMonth month && isDay day && isHour hour &&
      isSixtieth minute && isSixtieth second && numberOf year != 0 &&
      numberOf day ≤ daysIn (numberOf year) (numberOf month)).getD false

/-- Whether a text is a time of expiry. -/
def isValid (t : Text) : Bool :=
  isTime ((t.reverse.dropWhile (· == 'Z')).reverse.takeWhile (· != '.'))

end DocTemplate.Expiry
