import DocTemplate.Text.Hexadecimal
import DocTemplate.Text.Numeral

/-!
# Decoding UTF-8

Turns bytes into a text. Overlong forms, surrogates and codes above U+10FFFF are refused: each
first byte limits the range of the second, so the first byte that cannot belong to the sequence
shows the error. The error covers the bytes of the sequence that were accepted before it.
-/

namespace DocTemplate

/-- Why bytes are not the UTF-8 form of a text. -/
inductive Utf8Fault where
  | invalidStart
  | invalidContinuation
  | unexpectedEnd
  deriving DecidableEq, Repr

/-- The bytes that cannot be decoded: `size` of them from offset `start` on, the first one being
`byte`. -/
structure Utf8Error where
  start : Nat
  size : Nat
  byte : UInt8
  fault : Utf8Fault
  deriving DecidableEq, Repr

/-- The reason in words. -/
def Utf8Fault.message : Utf8Fault → String
  | .invalidStart => "invalid start byte"
  | .invalidContinuation => "invalid continuation byte"
  | .unexpectedEnd => "unexpected end of data"

/-- What is wrong, where, and why. -/
def Utf8Error.message (e : Utf8Error) : String :=
  let place :=
    if e.size = 1 then
      s!"byte 0x" ++ String.ofList (Text.hex 2 e.byte.toNat) ++ s!" in position {e.start}"
    else
      s!"bytes in position {e.start}-{e.start + e.size - 1}"
  "'utf-8' codec can't decode " ++ place ++ ": " ++ e.fault.message

namespace Text

/-- Whether a byte may follow the first one of a sequence. -/
def isContinuation (b : UInt8) : Bool :=
  0x80 ≤ b && b < 0xc0

/-- Whether `b` may be the second byte of a sequence that starts with `a`. -/
def isSecond (a b : UInt8) : Bool :=
  isContinuation b && !(a == 0xe0 && b < 0xa0) && !(a == 0xed && 0xa0 ≤ b) &&
    !(a == 0xf0 && b < 0x90) && !(a == 0xf4 && 0x90 ≤ b)

/-- The six low bits of a byte. -/
def lowBits (b : UInt8) : Nat :=
  b.toNat % 64

/-- Decodes bytes of which the first has offset `start`; `done` holds the characters before them,
last one first. -/
def decodeUtf8From (start : Nat) (done : Text) : List UInt8 → Except Utf8Error Text
  | [] => .ok done.reverse
  | a :: rest =>
    let fail (size : Nat) (fault : Utf8Fault) : Except Utf8Error Text :=
      .error ⟨start, size, a, fault⟩
    if a < 0x80 then decodeUtf8From (start + 1) (Char.ofNat a.toNat :: done) rest
    else if a < 0xc2 || 0xf5 ≤ a then fail 1 .invalidStart
    else
      match rest with
      | [] => fail 1 .unexpectedEnd
      | b :: rest =>
        if !isSecond a b then fail 1 .invalidContinuation
        else if a < 0xe0 then
          decodeUtf8From (start + 2) (Char.ofNat (a.toNat % 32 * 64 + lowBits b) :: done) rest
        else
          match rest with
          | [] => fail 2 .unexpectedEnd
          | c :: rest =>
            if !isContinuation c then fail 2 .invalidContinuation
            else if a < 0xf0 then
              decodeUtf8From (start + 3)
                (Char.ofNat ((a.toNat % 16 * 64 + lowBits b) * 64 + lowBits c) :: done) rest
            else
              match rest with
              | [] => fail 3 .unexpectedEnd
              | d :: rest =>
                if !isContinuation d then fail 3 .invalidContinuation
                else
                  decodeUtf8From (start + 4)
                    (Char.ofNat (((a.toNat % 8 * 64 + lowBits b) * 64 + lowBits c) * 64 + lowBits d)
                      :: done) rest

/-- The text whose UTF-8 form the bytes are. -/
def decodeUtf8 (bytes : List UInt8) : Except Utf8Error Text :=
  decodeUtf8From 0 [] bytes

end Text

end DocTemplate
