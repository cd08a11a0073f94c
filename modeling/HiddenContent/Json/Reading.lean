import HiddenContent.Json

/-!
# Reading JSON text

A text holds exactly one value, with spaces, tabulators, line feeds and carriage returns around
it and between its parts. Beside the numbers of the standard, `NaN`, `Infinity` and `-Infinity`
are read. A control character inside a string is refused. Two escapes that are the halves of one
character are joined. A name that an object repeats keeps its first position and its last value.
A whole number may have thousands of digits, but not any number of them.

Nesting is bounded by a count that no text can reach, because each level takes a character.
-/

namespace HiddenContent

namespace Json

/-- Drop the blanks between parts. -/
def skipBlanks (text : Text) : Text :=
  text.dropWhile fun c => c == ' ' || c == '\t' || c == '\n' || c == '\r'

/-- The value of a hexadecimal digit. -/
def hexDigit? (c : Char) : Option Nat :=
  if c.isDigit then some (c.toNat - '0'.toNat)
  else if 'a' ≤ c ∧ c ≤ 'f' then some (c.toNat - 'a'.toNat + 10)
  else if 'A' ≤ c ∧ c ≤ 'F' then some (c.toNat - 'A'.toNat + 10)
  else none

/-- The number that four hexadecimal digits write. -/
def unit? (a b c d : Char) : Option Nat := do
  let first ← hexDigit? a
  let second ← hexDigit? b
  let third ← hexDigit? c
  let fourth ← hexDigit? d
  return ((first * 16 + second) * 16 + third) * 16 + fourth

/-- The character that a letter after a backslash stands for. -/
def escaped? (c : Char) : Option Char :=
  if c == '\x22' || c == '\\' || c == '/' then some c
  else if c == 'b' then some '\x08'
  else if c == 'f' then some '\x0c'
  else if c == 'n' then some '\n'
  else if c == 'r' then some '\r'
  else if c == 't' then some '\t'
  else none

/-- The codes of a string up to its closing quote, and what follows the quote. -/
def readCodes : Text → Option (List Nat × Text)
  | [] => none
  | '\x22' :: rest => some ([], rest)
  | '\\' :: 'u' :: a :: b :: c :: d :: rest =>
    match unit? a b c d, readCodes rest with
    | some unit, some (codes, after) => some (unit :: codes, after)
    | _, _ => none
  | '\\' :: c :: rest =>
    match escaped? c, readCodes rest with
    | some character, some (codes, after) => some (character.toNat :: codes, after)
    | _, _ => none
  | c :: rest =>
    if c.toNat < 0x20 || c == '\\' then none
    else (readCodes rest).map fun (codes, after) => (c.toNat :: codes, after)

/-- The characters of codes, where two halves that follow each other are one character. A half
    that stands alone is shown as the replacement character. -/
def joinCodes : List Nat → Text
  | [] => []
  | high :: low :: rest =>
    if 0xd800 ≤ high && high < 0xdc00 && 0xdc00 ≤ low && low < 0xe000 then
      Char.ofNat (0x10000 + (high - 0xd800) * 0x400 + (low - 0xdc00)) :: joinCodes rest
    else
      single high :: joinCodes (low :: rest)
  | [last] => [single last]
where
  /-- A code that is not half of a character. -/
  single (code : Nat) : Char :=
    if 0xd800 ≤ code && code < 0xe000 then '\ufffd' else Char.ofNat code

/-- A string after its opening quote. -/
def readString (text : Text) : Option (Text × Text) :=
  (readCodes text).map fun (codes, rest) => (joinCodes codes, rest)

/-- The digits in front of a text, at least one. -/
def digits? (text : Text) : Option (Text × Text) :=
  let digits := text.takeWhile Char.isDigit
  if digits.isEmpty then none else some (digits, text.dropWhile Char.isDigit)

/-- A fraction in front of a text. -/
def fraction? : Text → Option (Text × Text)
  | '.' :: rest => (digits? rest).map fun (digits, after) => ('.' :: digits, after)
  | _ => none

/-- An exponent in front of a text. -/
def exponent? : Text → Option (Text × Text)
  | c :: rest =>
    if c == 'e' || c == 'E' then
      match rest with
      | '+' :: more => (digits? more).map fun (digits, after) => (c :: '+' :: digits, after)
      | '-' :: more => (digits? more).map fun (digits, after) => (c :: '-' :: digits, after)
      | more => (digits? more).map fun (digits, after) => (c :: digits, after)
    else
      none
  | [] => none

/-- The whole part of a number: no digit follows a leading zero. -/
def whole? : Text → Option (Text × Text)
  | '0' :: rest => some (['0'], rest)
  | text => digits? text

/-- The number of digits that a whole number may have. -/
def mostDigits : Nat := 4300

/-- A number without its sign. -/
def readUnsigned (sign text : Text) : Option (Json × Text) :=
  (whole? text).bind fun (whole, rest) =>
    match fraction? rest, exponent? rest with
    | some (fraction, more), _ =>
      match exponent? more with
      | some (exponent, after) => some (.real (sign ++ whole ++ fraction ++ exponent), after)
      | none => some (.real (sign ++ whole ++ fraction), more)
    | none, some (exponent, after) => some (.real (sign ++ whole ++ exponent), after)
    | none, none =>
      if mostDigits < whole.length then none
      else
        let size := ofDigits whole
        some (.integer (if sign.isEmpty then size else -size), rest)

/-- The words that are values. -/
def words : List (Text × Json) :=
  [("null".toList, .null), ("true".toList, .boolean true), ("false".toList, .boolean false),
    ("NaN".toList, .real "NaN".toList), ("Infinity".toList, .real "Infinity".toList),
    ("-Infinity".toList, .real "-Infinity".toList)]

/-- A word or a number in front of a text. -/
def readPlain (text : Text) : Option (Json × Text) :=
  match words.findSome? fun (word, value) => (Text.after? word text).map fun rest => (value, rest)
  with
  | some found => some found
  | none =>
    match text with
    | '-' :: rest => readUnsigned ['-'] rest
    | whole => readUnsigned [] whole

mutual

/-- A value in front of a text, and what follows it. -/
def readValue : (fuel : Nat) → Text → Option (Json × Text)
  | 0, _ => none
  | fuel + 1, text =>
    match text with
    | '\x22' :: rest => (readString rest).map fun (value, after) => (.string value, after)
    | '[' :: rest =>
      match skipBlanks rest with
      | ']' :: after => some (.array [], after)
      | items => (readItems fuel items).map fun (items, after) => (.array items, after)
    | '{' :: rest =>
      match skipBlanks rest with
      | '}' :: after => some (.object [], after)
      | members =>
        (readMembers fuel members).map fun (members, after) =>
          (.object (Members.ofList members), after)
    | other => readPlain other

/-- The items of an array up to its closing bracket. -/
def readItems : (fuel : Nat) → Text → Option (List Json × Text)
  | 0, _ => none
  | fuel + 1, text =>
    match readValue fuel text with
    | none => none
    | some (item, rest) =>
      match skipBlanks rest with
      | ']' :: after => some ([item], after)
      | ',' :: more =>
        (readItems fuel (skipBlanks more)).map fun (items, after) => (item :: items, after)
      | _ => none

/-- The members of an object up to its closing brace. -/
def readMembers : (fuel : Nat) → Text → Option (Members × Text)
  | 0, _ => none
  | fuel + 1, text =>
    match text with
    | '\x22' :: quoted =>
      match readString quoted with
      | none => none
      | some (name, afterName) =>
        match skipBlanks afterName with
        | ':' :: afterColon =>
          match readValue fuel (skipBlanks afterColon) with
          | none => none
          | some (value, rest) =>
            match skipBlanks rest with
            | '}' :: after => some ([(.string name, value)], after)
            | ',' :: more =>
              (readMembers fuel (skipBlanks more)).map fun (members, after) =>
                ((.string name, value) :: members, after)
            | _ => none
        | _ => none
    | _ => none

end

/-- The one value that a text holds. -/
def ofText? (text : Text) : Option Json :=
  match readValue (2 * text.length + 2) (skipBlanks text) with
  | none => none
  | some (value, rest) => if (skipBlanks rest).isEmpty then some value else none

end Json

end HiddenContent
