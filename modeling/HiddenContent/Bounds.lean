import HiddenContent.Span

/-!
# Remembered bounds of blobs

A scan over a text with many opening braces would look for the same closing brace again and
again. A `NextIndex` remembers the range of the last search for one character and answers
from it whenever the question falls inside. `Bounds` holds one such memory for the closing
brace and one for the line feed. The searches here answer as those of `Span` do, and hand
the memory on to the next search over the same text. A memory never changes an answer, whatever
the order of the positions asked for.
-/

namespace HiddenContent

/-- The last search for a character: from `start` on it stands first at `found`. The initial
    range is empty and answers nothing. -/
structure NextIndex where
  start : Nat := 1
  found : Nat := 0
deriving DecidableEq, Repr

namespace NextIndex

/-- The first position of a character from `pos` on, and the length of the text when the
    character does not stand there. -/
def search (c : Char) (text : Text) (pos : Nat) : Nat :=
  min text.length (pos + ((text.drop pos).takeWhile (· != c)).length)

/-- Answer from memory inside the remembered range, and search otherwise. -/
def ask (c : Char) (text : Text) (remembered : NextIndex) (pos : Nat) : Nat × NextIndex :=
  if remembered.start ≤ pos ∧ pos ≤ remembered.found then (remembered.found, remembered)
  else
    let found := search c text pos
    (found, { start := pos, found })

end NextIndex

/-- The memories for one text. -/
structure Bounds where
  text : Text
  size : Nat := text.length
  close : NextIndex := {}
  newline : NextIndex := {}
  size_eq : size = text.length := by rfl

namespace Bounds

/-- Fresh memories for a text. -/
def ofText (text : Text) : Bounds := { text }

/-- The next closing brace. -/
def closeAt (bounds : Bounds) (pos : Nat) : Nat × Bounds :=
  let (found, close) := bounds.close.ask '}' bounds.text pos
  (found, { bounds with close })

/-- The next line feed. -/
def newlineAt (bounds : Bounds) (pos : Nat) : Nat × Bounds :=
  let (found, newline) := bounds.newline.ask '\n' bounds.text pos
  (found, { bounds with newline })

/-- The position after the blob whose brace opens at `pos`, when it closes, on its own line
    unless it may have several. -/
def blobEnd (bounds : Bounds) (multiline : Bool) (pos : Nat) : Option Nat × Bounds :=
  let (close, bounds) := bounds.closeAt pos
  if bounds.size ≤ close then (none, bounds)
  else if multiline then (some (close + 1), bounds)
  else
    let (newline, bounds) := bounds.newlineAt pos
    (if newline < close then none else some (close + 1), bounds)

/-- The number of characters of the blob in front of `rest`, which begins at `pos`. -/
def blobLength (bounds : Bounds) (multiline : Bool) (rest : Text) (pos : Nat) :
    Option Nat × Bounds :=
  match rest with
  | '{' :: _ =>
    let (stop, bounds) := bounds.blobEnd multiline pos
    (stop.map (· - pos), bounds)
  | _ => (some 0, bounds)

/-- The inline directive in front of `rest`, which begins at `pos`. -/
def inlineHere (bounds : Bounds) (rest : Text) (pos : Nat) : Option Span × Bounds :=
  match Span.inlineHead? rest with
  | none => (none, bounds)
  | some (action, rest) =>
    let (length, bounds) :=
      bounds.blobLength false rest (pos + Span.marker.length + action.length)
    (length.bind (Span.inlineOf? pos action rest), bounds)

/-- The first inline directive of the rest of the text, which begins at `pos`. -/
def inlineSearch (bounds : Bounds) : Text → Nat → Option Span × Bounds
  | [], _ => (none, bounds)
  | c :: rest, pos =>
    match bounds.inlineHere (c :: rest) pos with
    | (some span, bounds) => (some span, bounds)
    | (none, bounds) => bounds.inlineSearch rest (pos + 1)

/-- The first inline directive that starts at a position or after it. -/
def inlineFrom (bounds : Bounds) (pos : Nat) : Option Span × Bounds :=
  bounds.inlineSearch (bounds.text.drop pos) pos

/-- The token in front of `rest`, which begins at `pos`. -/
def placeholderHere (bounds : Bounds) (rest : Text) (pos : Nat) : Option Span × Bounds :=
  match Span.placeholderHead? rest with
  | none => (none, bounds)
  | some (action, mode, rest) =>
    let (length, bounds) :=
      bounds.blobLength true rest (pos + Span.placeholderHeadLength action mode)
    (length.bind (Span.placeholderOf? pos action mode rest), bounds)

/-- The first token of the rest of the text, which begins at `pos`. -/
def placeholderSearch (bounds : Bounds) : Text → Nat → Option Span × Bounds
  | [], _ => (none, bounds)
  | c :: rest, pos =>
    match bounds.placeholderHere (c :: rest) pos with
    | (some span, bounds) => (some span, bounds)
    | (none, bounds) => bounds.placeholderSearch rest (pos + 1)

/-- The first token that starts at a position or after it. -/
def placeholderFrom (bounds : Bounds) (pos : Nat) : Option Span × Bounds :=
  bounds.placeholderSearch (bounds.text.drop pos) pos

end Bounds

end HiddenContent
