import HiddenContent.Bounds

/-!
# The directives and tokens of a text in order

Two searches run over the text side by side, one for inline directives and one for tokens.
Of the two next spans the one that starts first is taken, the scan goes on at its end, and a
search is renewed only when its span lies behind.

A span ends after the position it was found from, which is why the walk ends.
-/

namespace HiddenContent

/-- The next span of one search, and the memory it hands on. -/
structure Lookahead where
  next : Option Span
  bounds : Bounds

namespace Lookahead

/-- Search again from `pos` on when the span that was found lies behind. -/
def refresh (search : Bounds → Nat → Option Span × Bounds) (ahead : Lookahead) (pos : Nat) :
    Lookahead :=
  match ahead.next with
  | none => ahead
  | some span =>
    if span.start < pos then
      let (next, bounds) := search ahead.bounds pos
      { next, bounds }
    else
      ahead

end Lookahead

namespace Tokens

/-- Of two spans the one that starts first; the directive when both start together. -/
def nearest : (directive placeholder : Option Span) → Option Span
  | some directive, some placeholder =>
    if placeholder.start < directive.start then some placeholder else some directive
  | some directive, none => some directive
  | none, placeholder => placeholder

/-- The spans from `pos` on, given the next directive and the next token. -/
def walk (size pos : Nat) (directive placeholder : Lookahead) : List Span :=
  match nearest directive.next placeholder.next with
  | none => []
  | some span =>
    if _ : pos < span.stop ∧ span.stop ≤ size then
      span :: walk size span.stop (directive.refresh Bounds.inlineFrom span.stop)
        (placeholder.refresh Bounds.placeholderFrom span.stop)
    else
      [span]
termination_by size - pos

/-- The spans of a text from left to right, with or without the tokens. -/
def ofText (text : Text) (placeholders : Bool) : List Span :=
  let fresh := Bounds.ofText text
  let (directive, directiveBounds) := fresh.inlineFrom 0
  let (placeholder, placeholderBounds) :=
    if placeholders then fresh.placeholderFrom 0 else (none, fresh)
  walk fresh.size 0 ⟨directive, directiveBounds⟩ ⟨placeholder, placeholderBounds⟩

/-- The span in front of the text that begins at `pos`. -/
def here? (placeholders : Bool) (text : Text) (pos : Nat) : Option Span :=
  match Span.inlineHere? text pos with
  | some span => some span
  | none => if placeholders then Span.placeholderHere? text pos else none

/-- The tokens from `pos` on, each searched from the end of the one before. -/
def placeholderWalk (size pos : Nat) (bounds : Bounds) : List Span :=
  match bounds.placeholderFrom pos with
  | (none, _) => []
  | (some span, bounds) =>
    if _ : pos < span.stop ∧ span.stop ≤ size then
      span :: placeholderWalk size span.stop bounds
    else
      [span]
termination_by size - pos

/-- The tokens of a text from left to right. -/
def placeholders (text : Text) : List Span :=
  let fresh := Bounds.ofText text
  placeholderWalk fresh.size 0 fresh

end Tokens

end HiddenContent
