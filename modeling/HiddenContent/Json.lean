import HiddenContent.Mapping

/-!
# JSON values and how they are written

Trees of nodes and summaries are written as JSON text: two more spaces for each level, one
member or item on a line, a space after the colon, and brackets that hold nothing closed at
once. A character that ASCII cannot print is written by its UTF-16 code units in lower-case
hexadecimal digits, so that the text is printable ASCII.

The members of an object keep their order, and each name occurs once. In a text every name is a
string. An object that is made in memory may name its members by any value without parts; two
numbers that are equal are the same name then, and a truth value is the same name as its number. A
number with a fraction or an exponent is equal to what the nearest double is.
-/

namespace HiddenContent

namespace Json

/-- What a member of an object is named by: a value without parts. -/
inductive Name where
  | null
  | boolean (value : Bool)
  | integer (value : Int)
  | real (spelling : Text)
  | string (value : Text)
deriving DecidableEq, Repr

end Json

/-- A JSON value. A number with a fraction or an exponent keeps its spelling. -/
inductive Json where
  | null
  | boolean (value : Bool)
  | integer (value : Int)
  | real (spelling : Text)
  | string (value : Text)
  | array (items : List Json)
  | object (members : List (Json.Name × Json))
deriving Inhabited

namespace Json

/-- The members of an object in order. -/
abbrev Members := List (Name × Json)

instance : Coe Text Name := ⟨.string⟩

instance : Coe Text Json := ⟨.string⟩

/-- The text that a value is, if it is one. -/
def text? : Json → Option Text
  | string value => some value
  | _ => none

/-- The text that a value is, empty when it is none. -/
def text (value : Json) : Text := value.text?.getD []

/-- A value that is no text counts as the empty text. -/
@[simp] theorem text?_getD (value : Json) : value.text?.getD [] = value.text := rfl

/-- The absent value counts as the empty text. -/
@[simp] theorem text_null : null.text = [] := rfl

/-- A string counts as its text. -/
@[simp] theorem text_string (value : Text) : (string value).text = value := rfl

/-- A value whose text is not empty is that string. -/
theorem eq_string {value : Json} {text : Text} (same : value.text = text) (inhabited : text ≠ []) :
    value = string text := by
  cases value with
  | string other => exact congrArg string same
  | _ => exact absurd same.symm inhabited

/-- The seven shapes of a value. -/
inductive Shape where
  | null
  | boolean
  | integer
  | real
  | string
  | array
  | object
deriving DecidableEq, Repr

/-- The shape of a value. -/
def shape : Json → Shape
  | null => .null
  | boolean _ => .boolean
  | integer _ => .integer
  | real _ => .real
  | string _ => .string
  | array _ => .array
  | object _ => .object

/-! ## Names -/

/-- The whole number that digits write. -/
def ofDigits (digits : Text) : Int :=
  digits.foldl (fun value c => value * 10 + (c.toNat - '0'.toNat)) 0

/-- A number, as numbers of all shapes are compared. -/
inductive Magnitude where
  | finite (value : Rat)
  | infinite (isNegative : Bool)
deriving DecidableEq

namespace Magnitude

open Float.Model (UnpackedFloat)

/-- The exact value of a double, negated on demand. -/
def ofDouble? (isNegative : Bool) : UnpackedFloat → Option Magnitude
  | .notANumber => none
  | .infinity _ => some (.infinite isNegative)
  | .zero _ => some (.finite 0)
  | .finite _ mantissa exponent _ =>
    let size := mantissa * (2 : Rat) ^ exponent
    some (.finite (if isNegative then -size else size))

/-- The value of a spelling with a fraction or an exponent: the double that is nearest to it, which
    is infinite for a spelling out of range. Of the words only the one for no number has none. -/
def ofSpelling? (spelling : Text) : Option Magnitude :=
  let isNegative := spelling.head? == some '-'
  let unsigned := if isNegative then spelling.drop 1 else spelling
  let digits := unsigned.takeWhile fun c => c.isDigit || c == '.'
  let places := ((digits.dropWhile (· != '.')).drop 1).length
  let exponent := unsigned.drop (digits.length + 1)
  let tens := ofDigits (exponent.filter Char.isDigit)
  if unsigned = "NaN".toList then none
  else if unsigned = "Infinity".toList then some (.infinite isNegative)
  else
    ofDouble? isNegative
      (Float.Model.ofScientific (ofDigits (digits.filter Char.isDigit)).toNat
        ((if exponent.head? == some '-' then -tens else tens) - places)).unpack

end Magnitude

namespace Name

/-- The number that a name is equal to, if there is one. -/
def number? : Name → Option Magnitude
  | boolean value => some (.finite (if value then 1 else 0))
  | integer value => some (.finite value)
  | real spelling => Magnitude.ofSpelling? spelling
  | _ => none

/-- True for the same name. -/
def same (first second : Name) : Bool :=
  match first.number?, second.number? with
  | some first, some second => first == second
  | _, _ => first == second

/-- A string is found under the name of the same text, and under no other. -/
@[simp] theorem string_same (text : Text) (name : Name) :
    (string text).same name = (.string text == name) := by
  simp [same, number?]

/-- A name as a value of its own. -/
def toJson : Name → Json
  | null => .null
  | boolean value => .boolean value
  | integer value => .integer value
  | real spelling => .real spelling
  | string value => .string value

/-- The text that a name is, empty when it is none. -/
def text (name : Name) : Text := name.toJson.text

/-- A name that is a string counts as its text. -/
@[simp] theorem text_string (value : Text) : (string value).text = value := rfl

end Name

namespace Members

/-- The members of texts. -/
def ofTexts (pairs : List (Text × Text)) : Members :=
  pairs.map fun (name, value) => (.string name, .string value)

instance : Coe (List (Text × Text)) Members := ⟨ofTexts⟩

/-- The texts that members hold. -/
def texts (members : Members) : List (Text × Text) :=
  members.map fun (name, value) => (name.text, value.text)

/-- Members made of texts are read back as these texts. -/
@[simp] theorem texts_ofTexts (pairs : List (Text × Text)) : (ofTexts pairs).texts = pairs := by
  simp [ofTexts, texts, Function.comp_def]

/-- Assign a value: a name that is there keeps its position and its spelling, a new one comes
    last. -/
def assign (members : Members) (name : Name) (value : Json) : Members :=
  match members with
  | [] => [(name, value)]
  | (present, old) :: rest =>
    if present.same name then (present, value) :: rest
    else (present, old) :: assign rest name value

/-- Assign members in order. -/
def update (members others : Members) : Members :=
  others.foldl (fun assigned (name, value) => assigned.assign name value) members

/-- The members that a sequence of assignments makes. -/
def ofList (pairs : Members) : Members := update [] pairs

end Members

/-! ## Writing -/

/-- The escape of one UTF-16 code unit. -/
def unitEscape (unit : Nat) : Text :=
  let digit (weight : Nat) : Char := Nat.digitChar (unit / weight % 16)
  ['\\', 'u', digit 0x1000, digit 0x100, digit 0x10, digit 1]

/-- One character inside a string. -/
def writeCharacter (c : Char) : Text :=
  let code := c.toNat
  if c == '\x22' then ['\\', '\x22']
  else if c == '\\' then ['\\', '\\']
  else if c == '\n' then ['\\', 'n']
  else if c == '\r' then ['\\', 'r']
  else if c == '\t' then ['\\', 't']
  else if code == 0x08 then ['\\', 'b']
  else if code == 0x0c then ['\\', 'f']
  else if 0x20 ≤ code && code < 0x7f then [c]
  else if code < 0x10000 then unitEscape code
  else
    unitEscape (0xd800 + (code - 0x10000) / 0x400) ++
      unitEscape (0xdc00 + (code - 0x10000) % 0x400)

/-- A string between double quotes. -/
def writeString (value : Text) : Text := ['\x22'] ++ value.flatMap writeCharacter ++ ['\x22']

/-- A new line at a level. -/
def newLine (level : Nat) : Text := '\n' :: List.replicate (2 * level) ' '

/-- A whole number. -/
def writeInteger (value : Int) : Text :=
  if value < 0 then '-' :: Text.decimal value.natAbs else Text.decimal value.natAbs

/-- The string that a name is written as. -/
def Name.written : Name → Text
  | .null => ['n', 'u', 'l', 'l']
  | .boolean true => ['t', 'r', 'u', 'e']
  | .boolean false => ['f', 'a', 'l', 's', 'e']
  | .integer value => writeInteger value
  | .real spelling => spelling
  | .string value => value

mutual

/-- A value whose brackets close at a level. -/
def write (level : Nat) : Json → Text
  | null => ['n', 'u', 'l', 'l']
  | boolean true => ['t', 'r', 'u', 'e']
  | boolean false => ['f', 'a', 'l', 's', 'e']
  | integer value => writeInteger value
  | real spelling => spelling
  | string value => writeString value
  | array [] => ['[', ']']
  | array items => ['['] ++ writeItems (level + 1) items ++ newLine level ++ [']']
  | object [] => ['{', '}']
  | object members => ['{'] ++ writeMembers (level + 1) members ++ newLine level ++ ['}']

/-- Items, each on a line of its own. -/
def writeItems (level : Nat) : List Json → Text
  | [] => []
  | [item] => newLine level ++ write level item
  | item :: rest => newLine level ++ write level item ++ [','] ++ writeItems level rest

/-- Members, each on a line of its own. -/
def writeMembers (level : Nat) : Members → Text
  | [] => []
  | [(name, value)] =>
    newLine level ++ writeString name.written ++ [':', ' '] ++ write level value
  | (name, value) :: rest =>
    newLine level ++ writeString name.written ++ [':', ' '] ++ write level value ++ [','] ++
      writeMembers level rest

end

/-- The JSON text of a value. -/
def toText (value : Json) : Text := write 0 value

end Json

end HiddenContent
