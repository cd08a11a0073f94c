import HiddenContent.Span

/-!
# Highlighting the source of a note

A source is cut into lexemes by rules. Each state has rules of its own. They are tried in order at
the current position, and the first that finds something is taken; a character for which none
does is an error. Outside a payload there are rules for an opener line, a closer line, the beginning
of an inline directive and a token, and everything else is plain text. Inside a payload
everything up to the next marker is hidden. Attributes in braces are cut on their own, by rules of
a third state.

Each rule names the parts of what it finds, and the parts together are what it finds. So the
lexemes together are the source, and each starts where the lexemes before it end.
-/

namespace HiddenContent

namespace Highlight

/-- What a lexeme is shown as. -/
inductive Style where
  | text
  | punctuation
  | keyword
  | declaration
  | tag
  | decorator
  | attributeName
  | operator
  | string
  | emphasis
  | error
deriving DecidableEq, Repr

/-- The dotted name of a style. -/
def Style.name : Style → String
  | text => "Text"
  | punctuation => "Punctuation"
  | keyword => "Keyword"
  | declaration => "Keyword.Declaration"
  | tag => "Name.Tag"
  | decorator => "Name.Decorator"
  | attributeName => "Name.Attribute"
  | operator => "Operator"
  | string => "Literal.String"
  | emphasis => "Generic.Emph"
  | error => "Error"

/-- A piece of the source, where it starts, and its style. -/
structure Lexeme where
  start : Nat
  style : Style
  value : Text
deriving DecidableEq, Repr

/-- The lexemes of consecutive parts; an empty part has none. -/
def lexemes (start : Nat) : List (Style × Text) → List Lexeme
  | [] => []
  | (style, value) :: rest =>
    (if value.isEmpty then [] else [⟨start, style, value⟩]) ++
      lexemes (start + value.length) rest

/-- The characters of consecutive parts. -/
def partsText (parts : List (Style × Text)) : Text := parts.flatMap Prod.snd

/-! ## Rules -/

/-- The states of the cut: outside a payload, inside one, and inside the braces of attributes. -/
inductive State where
  | root
  | payload
  | attributes
deriving DecidableEq, Repr

/-- What a rule finds: its parts, what follows them, and the state after them. -/
structure Found where
  parts : List (Style × Text)
  rest : Text
  state : State

/-- A rule looks at the text in front, and at whether a line begins there. -/
abbrev Rule := (lineStart : Bool) → Text → Option Found

/-- A rule for a run of characters of a class, as long as it can be. -/
def run (belongs : Char → Bool) (style : Style) (state : State) : Rule := fun _ text =>
  let run := text.takeWhile belongs
  if run.isEmpty then none
  else some { parts := [(style, run)], rest := text.dropWhile belongs, state }

/-- A rule for one character of a class. -/
def single (belongs : Char → Bool) (style : Style) (state : State) : Rule := fun _ text =>
  match text with
  | [] => none
  | c :: rest => if belongs c then some { parts := [(style, [c])], rest, state } else none

/-- Where no rule finds anything, a line feed is plain text and leads back to the first state, and
    any other character is an error. -/
def unfound (state : State) (c : Char) (rest : Text) : Found :=
  if c == '\n' then { parts := [(.text, [c])], rest, state := .root }
  else { parts := [(.error, [c])], rest, state }

/-- What the first of the rules that finds something finds. -/
def firstFound? (rules : List Rule) (lineStart : Bool) (text : Text) : Option Found :=
  rules.findSome? fun rule => rule lineStart text

/-- The lexemes of the text from `start` on, by the rules of each state. -/
def cutBy (rules : State → List Rule) (state : State) (lineStart : Bool) (start : Nat) :
    Text → List Lexeme
  | [] => []
  | c :: rest =>
    let found := (firstFound? (rules state) lineStart (c :: rest)).getD (unfound state c rest)
    if _ : found.rest.length < (c :: rest).length then
      lexemes start found.parts ++
        cutBy rules found.state ((partsText found.parts).getLast? == some '\n')
          (start + ((c :: rest).length - found.rest.length)) found.rest
    else
      lexemes start found.parts
termination_by text => text.length
decreasing_by assumption

/-! ## Attributes -/

/-- A character of an attribute name. -/
def isNameCharacter (c : Char) : Bool :=
  !Text.isBlank c && !([';', ',', '=', ':', '{', '}'] : Text).contains c

/-- A character of an attribute value. -/
def isValueCharacter (c : Char) : Bool := !([';', ',', '{', '}'] : Text).contains c

/-- A name, a separator with blanks around it, and a value. -/
def assignment : Rule := fun _ text =>
  let name := text.takeWhile isNameCharacter
  let afterName := text.dropWhile isNameCharacter
  let before := afterName.takeWhile Text.isBlank
  match afterName.dropWhile Text.isBlank with
  | c :: rest =>
    if !name.isEmpty && (c == '=' || c == ':') then
      let after := rest.takeWhile Text.isBlank
      let tail := rest.dropWhile Text.isBlank
      some
        { parts := [(.attributeName, name), (.text, before), (.operator, [c]), (.text, after),
            (.string, tail.takeWhile isValueCharacter)]
          rest := tail.dropWhile isValueCharacter
          state := .attributes }
    else
      none
  | [] => none

/-- The rules inside the braces of attributes, and for the braces. -/
def attributeRules : List Rule :=
  [single (fun c => c == '{' || c == '}') .punctuation .attributes,
    assignment,
    single (fun c => c == ';' || c == ',') .punctuation .attributes,
    run Text.isBlank .text .attributes,
    run isValueCharacter .text .attributes]

/-- The lexemes of attributes in braces on their own. -/
def ofAttributes (blob : Text) : List Lexeme :=
  cutBy (fun _ => attributeRules) .attributes true 0 blob

/-- The parts of attributes in braces. -/
def attributeParts (blob : Text) : List (Style × Text) :=
  (ofAttributes blob).map fun lexeme => (lexeme.style, lexeme.value)

/-! ## Outside and inside a payload -/

/-- True at the end of a line. -/
def atLineEnd : Text → Bool
  | [] => true
  | c :: _ => c == '\n'

/-- Braces in front of a text with the characters that they may hold, and what follows them;
    nothing when they are not closed. -/
def braces (holds : Char → Bool) (text : Text) : Text × Text :=
  match text with
  | '{' :: inside =>
    match inside.dropWhile holds with
    | '}' :: rest => (['{'] ++ inside.takeWhile holds ++ ['}'], rest)
    | _ => ([], text)
  | _ => ([], text)

/-- A character that braces on one line may hold. -/
def isInsideLine (c : Char) : Bool := c != '}' && c != '\n'

/-- A character that any braces may hold. -/
def isInside (c : Char) : Bool := c != '}'

/-- An opener alone on its line. -/
def openerLine : Rule := fun lineStart text =>
  let indent := text.takeWhile Text.isSpacing
  if lineStart then
    (Span.inlineHead? (text.dropWhile Text.isSpacing)).bind fun (word, afterWord) =>
      let (blob, afterBlob) := braces isInsideLine afterWord
      let rest := afterBlob.dropWhile Text.isSpacing
      if atLineEnd rest then
        some
          { parts := [(.text, indent), (.punctuation, Span.marker), (.declaration, word)] ++
              attributeParts blob ++ [(.text, afterBlob.takeWhile Text.isSpacing)]
            rest
            state := .root }
      else
        none
  else
    none

/-- A closer alone on its line. -/
def closerLine : Rule := fun lineStart text =>
  let indent := text.takeWhile Text.isSpacing
  if lineStart then
    (Text.after? Span.marker (text.dropWhile Text.isSpacing)).bind fun afterMarker =>
      let rest := afterMarker.dropWhile Text.isSpacing
      if atLineEnd rest then
        some
          { parts := [(.text, indent), (.punctuation, Span.marker),
              (.text, afterMarker.takeWhile Text.isSpacing)]
            rest
            state := .root }
      else
        none
  else
    none

/-- The beginning of an inline directive, up to its payload. -/
def inlineHead : Rule := fun _ text =>
  (Span.inlineHead? text).bind fun (word, afterWord) =>
    let (blob, afterBlob) := braces isInsideLine afterWord
    let spacing := afterBlob.takeWhile Text.isSpacing
    if spacing.isEmpty then none
    else
      some
        { parts := [(.punctuation, Span.marker), (.tag, word)] ++ attributeParts blob ++
            [(.text, spacing)]
          rest := afterBlob.dropWhile Text.isSpacing
          state := .payload }

/-- The word of a mode in front of a text, and what follows it. -/
def modeWord? (text : Text) : Option (Text × Text) :=
  match Text.after? Mode.inline.word text, Text.after? Mode.block.word text with
  | some rest, _ => some (Mode.inline.word, rest)
  | none, some rest => some (Mode.block.word, rest)
  | none, none => none

/-- A token. -/
def token : Rule := fun _ text =>
  ((Text.after? ['['] text).bind Span.word?).bind fun (word, afterWord) =>
    ((Text.after? ['-'] afterWord).bind modeWord?).bind fun (mode, afterMode) =>
      let (blob, afterBlob) := braces isInside afterMode
      (Text.after? [']'] afterBlob).map fun rest =>
        { parts := [(.punctuation, ['[']), (.keyword, word), (.punctuation, ['-']),
            (.decorator, mode)] ++ attributeParts blob ++ [(.punctuation, [']'])]
          rest
          state := .root }

/-- A character of plain text that no other rule can begin with. -/
def isPlain (c : Char) : Bool := c != ':' && c != '[' && c != '\n'

/-- The rules outside a payload. -/
def rootRules : List Rule :=
  [openerLine, closerLine, inlineHead, token, run isPlain .text .root,
    single (· == '\n') .text .root, single (· != '\n') .text .root]

/-- The marker that ends a payload, with one space or tabulator before it. -/
def closer : Rule := fun _ text =>
  match Text.after? Span.marker text with
  | some rest => some { parts := [(.punctuation, Span.marker)], rest, state := .root }
  | none =>
    match text with
    | c :: after =>
      if Text.isSpacing c then
        (Text.after? Span.marker after).map fun rest =>
          { parts := [(.punctuation, c :: Span.marker)], rest, state := .root }
      else
        none
    | [] => none

/-- The rules inside a payload. -/
def payloadRules : List Rule :=
  [closer, run (· != ':') .emphasis .payload, single (· == ':') .emphasis .payload]

/-- The rules of a state, in order. -/
def State.rules : State → List Rule
  | root => rootRules
  | payload => payloadRules
  | attributes => attributeRules

/-- The lexemes of a source as it stands. -/
def ofSource (source : Text) : List Lexeme := cutBy State.rules .root true 0 source

/-! ## The source as it is shown -/

/-- The source without a byte order mark, with one kind of line end, without empty lines at its
    ends, and ending with a line feed. -/
def shownSource (source : Text) : Text :=
  let unmarked := match source with
    | '\ufeff' :: rest => rest
    | whole => whole
  let trimmed := ((Text.withLineFeeds unmarked).dropWhile (· == '\n')).reverse.dropWhile (· == '\n')
  trimmed.reverse ++ ['\n']

/-- The lexemes of a source as it is shown. -/
def ofShown (source : Text) : List Lexeme := ofSource (shownSource source)

/-- What makes a page of lexemes under a title. The styles and the frame of a page are its own
    affair; everything here holds for any formatter. -/
abbrev Formatter := (title : Text) → List Lexeme → Text

/-- The page of a source under a title. -/
def page (format : Formatter) (title source : Text) : Text := format title (ofShown source)

end Highlight

end HiddenContent
