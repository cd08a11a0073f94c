import HiddenContent.Attributes
import HiddenContent.Json

/-!
# Nodes of a note

A note is a sequence of nodes. An element has a kind, perhaps a literal value, and children;
only text, paragraphs and line breaks mean something to hidden content, and every other kind
passes through with whatever further data it has. Two kinds stand for hidden content: a
hidden run of text, whose payload is empty when it was read from a stored token, and a hidden
block, which owns the units it encloses.

Kinds, values, attributes, payloads and labels are texts in every node that a note is resolved to.
A node that is read from an object holds whatever stands there, and null where there is no value;
what asks for a text takes a member that is none for the empty text.
-/

namespace HiddenContent

/-- One node and what it encloses. -/
inductive Node where
  | element (kind value : Json) (children : List Node) (data : Json.Members)
  | hiddenInline (attributes : Json.Members) (payload label : Json)
  | hiddenBlock (attributes : Json.Members) (label : Json) (children : List Node)
deriving Inhabited

namespace Node

/-- The kind of literal text. -/
def textKind : Text := "text".toList

/-- The kind of a paragraph. -/
def paragraphKind : Text := "paragraph".toList

/-- The kind of a blank line. -/
def lineBreakKind : Text := "lineBreak".toList

/-- The kind of a hidden run of text. -/
def hiddenInlineKind : Text := "hiddenInline".toList

/-- The kind of a hidden block. -/
def hiddenBlockKind : Text := "hiddenBlock".toList

/-- The name of a node's kind. -/
def kind : Node → Text
  | element kind _ _ _ => kind.text
  | hiddenInline _ _ _ => hiddenInlineKind
  | hiddenBlock _ _ _ => hiddenBlockKind

/-- The literal value; hidden nodes have none. -/
def value? : Node → Option Text
  | element _ value _ _ => value.text?
  | hiddenInline _ _ _ => none
  | hiddenBlock _ _ _ => none

/-- The literal value, empty when there is none. -/
def valueText (node : Node) : Text := node.value?.getD []

/-- The nodes that a node encloses. -/
def children : Node → List Node
  | element _ _ children _ => children
  | hiddenInline _ _ _ => []
  | hiddenBlock _ _ children => children

/-- The same node around other children; a hidden run encloses nothing. -/
def withChildren (node : Node) (children : List Node) : Node :=
  match node with
  | element kind value _ data => element kind value children data
  | hiddenInline attributes payload label => hiddenInline attributes payload label
  | hiddenBlock attributes label _ => hiddenBlock attributes label children

/-- True for literal text. -/
def isText (node : Node) : Bool := node.kind == textKind

/-- True for a blank line. -/
def isLineBreak (node : Node) : Bool := node.kind == lineBreakKind

/-- True for the two kinds that stand for hidden content. -/
def isHidden : Node → Bool
  | element _ _ _ _ => false
  | hiddenInline _ _ _ => true
  | hiddenBlock _ _ _ => true

/-- A hidden node is no text. -/
theorem isText_of_isHidden {node : Node} (hidden : node.isHidden = true) :
    node.isText = false := by
  cases node with
  | element kind value children data => simp [isHidden] at hidden
  | hiddenInline attributes payload label =>
    exact (by decide : (hiddenInlineKind == textKind) = false)
  | hiddenBlock attributes label children =>
    exact (by decide : (hiddenBlockKind == textKind) = false)

/-- Literal text. -/
def ofText (value : Text) : Node := element textKind value [] []

/-- A paragraph of nodes. -/
def paragraph (children : List Node) : Node := element paragraphKind .null children []

/-- A blank line. -/
def lineBreak : Node := element lineBreakKind .null [] []

mutual

/-- One for the node, the length of its value, and the weights of its children. Every part that
    is resolved on its own weighs less than the whole. -/
def weight : Node → Nat
  | element _ value children _ => 1 + value.text.length + weights children
  | hiddenInline _ _ _ => 1
  | hiddenBlock _ _ children => 1 + weights children

/-- The weight of a sequence. -/
def weights : List Node → Nat
  | [] => 0
  | node :: rest => weight node + weights rest

end

end Node

/-- Cut the text of a note into units: a paragraph for each line that is not blank and a line
    break for each blank line, without the line breaks at the end. -/
def segment (text : Text) : List Node :=
  let units := text.lines.map fun line =>
    if line.strip.isEmpty then Node.lineBreak else Node.paragraph [Node.ofText line]
  (units.reverse.dropWhile Node.isLineBreak).reverse

end HiddenContent
