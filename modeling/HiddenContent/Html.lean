import HiddenContent.Mapping

/-!
# HTML text

Text is escaped where it enters HTML: the ampersand and the angle brackets, and both quotes too, so
that an attribute value never ends early.
-/

namespace HiddenContent

namespace Html

/-- One character between tags. -/
def escapeTagCharacter (c : Char) : Text :=
  if c == '&' then "&amp;".toList
  else if c == '<' then "&lt;".toList
  else if c == '>' then "&gt;".toList
  else [c]

/-- One character anywhere. -/
def escapeCharacter (c : Char) : Text :=
  if c == '\x22' then "&quot;".toList
  else if c == '\x27' then "&#x27;".toList
  else escapeTagCharacter c

/-- A text anywhere, its quotes escaped. -/
def escape (text : Text) : Text := text.flatMap escapeCharacter

/-- Properties inside a tag, each after a space. -/
def properties (pairs : Mapping Text) : Text :=
  pairs.flatMap fun (name, value) =>
    [' '] ++ name ++ ['=', '\x22'] ++ escape value ++ ['\x22']

/-- An element with properties around a body of HTML. -/
def element (tag : Text) (pairs : Mapping Text) (body : Text) : Text :=
  ['<'] ++ tag ++ properties pairs ++ ['>'] ++ body ++ ['<', '/'] ++ tag ++ ['>']

end Html

end HiddenContent
