import HiddenContent.Mapping

/-!
# Attributes of hidden content

A directive or a token may carry attributes in braces. Authors write
`{level=high;type=sensitive}` and stored tokens carry `{level:high,type:sensitive}`: two
dialects of one format without any escaping. Reading drops a malformed pair and keeps its
neighbours. Writing drops a pair that holds a reserved character, because such a pair would
corrupt the token around it. Some keys are reserved for the label shown in place of the
content, and `labelSplit` takes them out.

A key that is written twice keeps its first position and its last value.
-/

namespace HiddenContent

/-- Attribute values by key, in the order in which the keys were first written. -/
abbrev Attributes := Mapping Text

/-- The two spellings of attributes: what authors write and what tokens carry. -/
inductive Dialect where
  | authored
  | canonical
deriving DecidableEq, Repr

namespace Dialect

/-- What stands between two pairs. -/
def separator : Dialect → Text
  | authored => [';']
  | canonical => [',']

/-- What stands between a key and its value. -/
def keyValueSeparator : Dialect → Text
  | authored => ['=']
  | canonical => [':']

end Dialect

namespace Attributes

/-- Remove one opening brace in front and one closing brace at the end, where they stand. -/
def unbraced (text : Text) : Text :=
  let opened := match text with
    | '{' :: rest => rest
    | whole => whole
  if opened.getLast? = some '}' then opened.dropLast else opened

/-- The trimmed key and value of a piece, when the piece is cut by the separator and neither
    side is blank. -/
def pair? (keyValueSeparator piece : Text) : Option (Text × Text) :=
  match Text.cut? keyValueSeparator piece with
  | none => none
  | some (before, after) =>
    let key := before.strip
    let value := after.strip
    if key.isEmpty || value.isEmpty then none else some (key, value)

/-- The pieces of a blob, without its braces. -/
def blobPieces (separator blob : Text) : List Text := Text.pieces separator (unbraced blob.strip)

/-- Read a blob with any two separators; an empty separator reads nothing. -/
def extract (separator keyValueSeparator blob : Text) : Attributes :=
  if separator.isEmpty || keyValueSeparator.isEmpty then []
  else Mapping.ofList ((blobPieces separator blob).filterMap (pair? keyValueSeparator))

/-- Read a blob in a dialect. -/
def decode (dialect : Dialect) (blob : Text) : Attributes :=
  extract dialect.separator dialect.keyValueSeparator blob

/-- True when neither the key nor the value holds a forbidden character. -/
def isClean (forbidden : Text) (pair : Text × Text) : Bool :=
  (pair.1 ++ pair.2).all fun c => !forbidden.contains c

/-- Drop the pairs that cannot be written without escaping. -/
def sanitize (forbidden : Text) (attributes : Attributes) : Attributes :=
  attributes.filter (isClean forbidden)

/-- Write the clean pairs in a dialect, without braces. -/
def serialize (forbidden : Text) (dialect : Dialect) (attributes : Attributes) : Text :=
  dialect.separator.intercalate
    ((sanitize forbidden attributes).map fun (key, value) =>
      key ++ dialect.keyValueSeparator ++ value)

/-- A label and the attributes that remain beside it; the empty label stands for none. -/
structure Labelled where
  label : Text
  attributes : Attributes
deriving DecidableEq, Repr

/-- Take the reserved keys out. The label is the value of the first of them, in order of
    preference, that has one which is not empty. -/
def labelSplit (reserved : List Text) (attributes : Attributes) : Labelled where
  label := (reserved.findSome? fun key =>
    (attributes.get? key).filter fun value => !value.isEmpty).getD []
  attributes := attributes.filter fun (key, _) => !reserved.contains key

end Attributes

end HiddenContent
