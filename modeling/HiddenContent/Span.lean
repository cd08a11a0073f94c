import HiddenContent.Settings
import HiddenContent.Text.Word

/-!
# Directives and tokens in a text

Hidden content has two forms inside a line of text. The author writes an inline directive
`:::hide{level=high} secret :::`, and the stored text carries a token
`[hide-inline{level:high}]` or `[hide-block]`. A span says where such a form stands and what
it carries.

A form is read at one position and never elsewhere. A blob ends at the first closing brace
after its opening brace, on the same line for a directive and anywhere for a token. A payload
ends at the first marker. Every action word is read; which of them hides is decided by the
settings, and not here.
-/

namespace HiddenContent

/-- One directive or token in a text, from `start` up to but without `stop`. -/
structure Span where
  mode : Mode
  action : Text
  start : Nat
  stop : Nat
  /-- The attributes with their braces, empty when there are none. -/
  blob : Text
  /-- The hidden run of an inline directive, empty for a token. -/
  payload : Text
  /-- True for a token, whose payload is not stored. -/
  isPlaceholder : Bool
deriving DecidableEq, Repr

namespace Span

/-- The dialect of the attributes: tokens carry the canonical one. -/
def dialect (span : Span) : Dialect := if span.isPlaceholder then .canonical else .authored

/-- The marker that opens and closes a directive. -/
def marker : Text := [':', ':', ':']

/-- The word in front of a text and what follows it. -/
def word? (text : Text) : Option (Text × Text) :=
  let word := text.takeWhile Text.isWord
  if word.isEmpty then none else some (word, text.dropWhile Text.isWord)

/-- The number of characters of the blob in front of a text. It is zero when no brace opens
    there, and there is none when the brace is not closed, on its own line unless the blob may
    have several. -/
def blobLength? (multiline : Bool) : Text → Option Nat
  | '{' :: rest =>
    let inside := rest.takeWhile (· != '}')
    if inside.length = rest.length then none
    else if !multiline && inside.contains '\n' then none
    else some (inside.length + 2)
  | _ => some 0

/-- The position after the blob that may start at a position. -/
def blobEnd? (multiline : Bool) (text : Text) (pos : Nat) : Option Nat :=
  (blobLength? multiline (text.drop pos)).map (pos + ·)

/-! ## Inline directives -/

/-- The action word after a marker in front of a text, and what follows the word. -/
def inlineHead? (text : Text) : Option (Text × Text) := (Text.after? marker text).bind word?

/-- Remove one space or tabulator at the end. -/
def withoutLastSpacing (text : Text) : Text :=
  if text.getLast?.any Text.isSpacing then text.dropLast else text

/-- The inline directive that starts at `pos`, once its action and the length of its blob are
    known: spaces or tabulators, then the payload up to the first marker. -/
def inlineOf? (pos : Nat) (action rest : Text) (blobLength : Nat) : Option Span :=
  let body := rest.drop blobLength
  let spacing := body.takeWhile Text.isSpacing
  if spacing.isEmpty then none
  else
    (Text.cut? marker (body.dropWhile Text.isSpacing)).map fun (payload, _) =>
      { mode := .inline
        action
        start := pos
        stop := pos + marker.length + action.length + blobLength + spacing.length +
          payload.length + marker.length
        blob := rest.take blobLength
        payload := withoutLastSpacing payload
        isPlaceholder := false }

/-- The inline directive in front of the text that begins at `pos`. -/
def inlineHere? (text : Text) (pos : Nat) : Option Span :=
  match inlineHead? text with
  | none => none
  | some (action, rest) => (blobLength? false rest).bind (inlineOf? pos action rest)

/-- The inline directive that starts exactly at a position. -/
def inlineAt? (text : Text) (pos : Nat) : Option Span := inlineHere? (text.drop pos) pos

/-- The first inline directive of the text that begins at `pos`. -/
def inlineSearch? : Text → Nat → Option Span
  | [], _ => none
  | c :: rest, pos =>
    match inlineHere? (c :: rest) pos with
    | some span => some span
    | none => inlineSearch? rest (pos + 1)

/-- The first inline directive that starts at a position or after it. -/
def inlineFrom? (text : Text) (pos : Nat) : Option Span := inlineSearch? (text.drop pos) pos

/-! ## Tokens -/

/-- What follows the hyphen and the word of a mode, in front of a text. -/
def afterMode? (mode : Mode) (text : Text) : Option Text := Text.after? ('-' :: mode.word) text

/-- The action word and the mode after a bracket in front of a text, and what follows them. -/
def placeholderHead? (text : Text) : Option (Text × Mode × Text) :=
  match (Text.after? ['['] text).bind word? with
  | none => none
  | some (action, rest) =>
    match afterMode? .inline rest, afterMode? .block rest with
    | some tail, _ => some (action, .inline, tail)
    | none, some tail => some (action, .block, tail)
    | none, none => none

/-- The number of characters from the bracket to the blob. -/
def placeholderHeadLength (action : Text) (mode : Mode) : Nat :=
  1 + action.length + 1 + mode.word.length

/-- The token that starts at `pos`, once its head and the length of its blob are known: the
    closing bracket must follow at once. -/
def placeholderOf? (pos : Nat) (action : Text) (mode : Mode) (rest : Text) (blobLength : Nat) :
    Option Span :=
  match rest.drop blobLength with
  | ']' :: _ =>
    some
      { mode
        action
        start := pos
        stop := pos + placeholderHeadLength action mode + blobLength + 1
        blob := rest.take blobLength
        payload := []
        isPlaceholder := true }
  | _ => none

/-- The token in front of the text that begins at `pos`. -/
def placeholderHere? (text : Text) (pos : Nat) : Option Span :=
  match placeholderHead? text with
  | none => none
  | some (action, mode, rest) =>
    (blobLength? true rest).bind (placeholderOf? pos action mode rest)

/-- The token that starts exactly at a position. -/
def placeholderAt? (text : Text) (pos : Nat) : Option Span :=
  placeholderHere? (text.drop pos) pos

/-- The first token of the text that begins at `pos`. -/
def placeholderSearch? : Text → Nat → Option Span
  | [], _ => none
  | c :: rest, pos =>
    match placeholderHere? (c :: rest) pos with
    | some span => some span
    | none => placeholderSearch? rest (pos + 1)

/-- The first token that starts at a position or after it. -/
def placeholderFrom? (text : Text) (pos : Nat) : Option Span :=
  placeholderSearch? (text.drop pos) pos

/-! ## Replacing spans -/

/-- The text from `pos` on, where each span is replaced by what is written for it. The spans
    stand in order and do not overlap. -/
def splice (text : Text) (write : Span → Text) : Nat → List Span → Text
  | pos, [] => text.drop pos
  | pos, span :: rest => text.slice pos span.start ++ write span ++ splice text write span.stop rest

end Span

end HiddenContent
