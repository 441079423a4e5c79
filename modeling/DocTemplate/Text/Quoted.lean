import DocTemplate.Text.Hexadecimal
import DocTemplate.Text.Printable

/-!
# Quoted texts

A text as it is shown inside a message: between single quotes, or between double quotes if it
holds a single quote and no double one. The quote in use, the backslash and every character that
is not printable are escaped.
-/

namespace DocTemplate.Text

/-- The quote that a text is put between. -/
def quoteFor (t : Text) : Char :=
  if t.contains '\'' && !t.contains '"' then '"' else '\''

/-- The form of a character between two quotes `q`. -/
def quotedChar (q c : Char) : Text :=
  if c = q ∨ c = '\\' then ['\\', c]
  else if c = '\t' then ['\\', 't']
  else if c = '\n' then ['\\', 'n']
  else if c = '\r' then ['\\', 'r']
  else if isPrintable c then [c]
  else if c.toNat < 0x100 then ['\\', 'x'] ++ hex 2 c.toNat
  else if c.toNat < 0x10000 then ['\\', 'u'] ++ hex 4 c.toNat
  else ['\\', 'U'] ++ hex 8 c.toNat

/-- A text between quotes. -/
def quoted (t : Text) : Text :=
  let q := quoteFor t
  [q] ++ t.flatMap (quotedChar q) ++ [q]

end DocTemplate.Text
