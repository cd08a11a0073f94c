import HiddenContent.Text.Printable

/-!
# Quoted texts in diagnostics

A diagnostic writes a text between quotes on one line. The quote is the apostrophe, unless
the text holds an apostrophe and no double quote. The quote in use and the backslash are
written after a backslash, the line feed, carriage return and tabulator by their letters,
and every other character that is not printable by its number in hexadecimal digits.
-/

namespace HiddenContent.Text

/-- The last `width` hexadecimal digits of a number, the most significant first. -/
def hexadecimal : (width number : Nat) → Text
  | 0, _ => []
  | width + 1, number => hexadecimal width (number / 16) ++ [Nat.digitChar (number % 16)]

/-- The quote that a text is written between. -/
def quoteMark (text : Text) : Char :=
  if text.contains '\x27' && !text.contains '\x22' then '\x22' else '\x27'

/-- One character as it stands between two quotes. -/
def quotedCharacter (mark c : Char) : Text :=
  if c == mark || c == '\\' then ['\\', c]
  else if c == '\n' then ['\\', 'n']
  else if c == '\r' then ['\\', 'r']
  else if c == '\t' then ['\\', 't']
  else if isPrintable c then [c]
  else if c.toNat < 0x100 then ['\\', 'x'] ++ hexadecimal 2 c.toNat
  else if c.toNat < 0x10000 then ['\\', 'u'] ++ hexadecimal 4 c.toNat
  else ['\\', 'U'] ++ hexadecimal 8 c.toNat

/-- A text between quotes. -/
def quoted (text : Text) : Text :=
  let mark := quoteMark text
  [mark] ++ text.flatMap (quotedCharacter mark) ++ [mark]

/-- Several texts, each between quotes, as a bracketed list. -/
def quotedList (texts : List Text) : Text :=
  ['['] ++ [',', ' '].intercalate (texts.map quoted) ++ [']']

end HiddenContent.Text
