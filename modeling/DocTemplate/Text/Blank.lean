import DocTemplate.Text.Basic

/-!
# Blank characters

Which characters count as blank, and trimming a text of them. Blank are the characters that
Unicode calls white space together with the four separators U+001C to U+001F. The zero-width
space U+200B, the word joiner U+2060 and the byte order mark U+FEFF are not blank.
-/

namespace DocTemplate

/-- Whether a character is removed from the ends of a text when it is trimmed. -/
def isBlank (c : Char) : Bool :=
  let n := c.toNat
  (0x09 ≤ n && n ≤ 0x0d) || (0x1c ≤ n && n ≤ 0x20) || n == 0x85 || n == 0xa0 || n == 0x1680 ||
    (0x2000 ≤ n && n ≤ 0x200a) || n == 0x2028 || n == 0x2029 || n == 0x202f || n == 0x205f ||
    n == 0x3000

namespace Text

/-- `t` without the characters at both ends that `drop` accepts. -/
def trimBy (drop : Char → Bool) (t : Text) : Text :=
  ((t.dropWhile drop).reverse.dropWhile drop).reverse

/-- `t` without the blanks at both ends. -/
def trim (t : Text) : Text :=
  trimBy isBlank t

/-- A text is blank if nothing is left of it when it is trimmed. -/
def blank (t : Text) : Bool :=
  t.trim.isEmpty

@[simp] theorem trim_nil : trim [] = [] := rfl

end Text

end DocTemplate
