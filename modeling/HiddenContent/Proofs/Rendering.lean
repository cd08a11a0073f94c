import HiddenContent.Proofs.Assignments
import HiddenContent.Render

/-!
# What the built-in handlers render

The built-in registry tells four forms of element apart: text, paragraphs, line breaks, and
everything else, which is rendered without a handler. For each form of node one equation says what
is rendered; the registry is not looked at again. A reader to whom nothing is revealed is shown a
hidden node by its label and its attributes alone, so the rendering of a note is that of the note
without its hidden content, and two notes that differ in hidden content only are rendered alike.
-/

namespace HiddenContent

namespace Node

mutual

/-- A node without hidden content: no payload in a hidden run, nothing in a hidden block. -/
def masked : Node → Node
  | element kind value children data => element kind value (maskedAll children) data
  | hiddenInline attributes _ label => hiddenInline attributes (.string []) label
  | hiddenBlock attributes label _ => hiddenBlock attributes label []

/-- A sequence without hidden content. -/
def maskedAll : List Node → List Node
  | [] => []
  | node :: rest => masked node :: maskedAll rest

end

/-- Masking leaves nodes where there were some. -/
@[simp] theorem isEmpty_maskedAll (nodes : List Node) :
    (maskedAll nodes).isEmpty = nodes.isEmpty := by
  cases nodes <;> rfl

end Node

namespace Render

/-- The forms of element that the built-in handlers tell apart. -/
inductive Form where
  | text
  | paragraph
  | lineBreak
  | other
deriving DecidableEq, Repr

/-- The form of the elements of a kind. -/
def formOf (kind : Text) : Form :=
  if kind = Node.textKind then .text
  else if kind = Node.paragraphKind then .paragraph
  else if kind = Node.lineBreakKind ∨ kind = "break".toList then .lineBreak
  else .other

/-- A lookup among the built-in handlers. -/
theorem get?_builtin (kind : Text) :
    Registry.builtin.get? kind =
      if kind = Node.textKind then some textHandler
      else if kind = Node.paragraphKind then some paragraphHandler
      else if kind = Node.lineBreakKind then some lineBreakHandler
      else if kind = "break".toList then some lineBreakHandler
      else if kind = Node.hiddenInlineKind then some inlineHandler
      else if kind = Node.hiddenBlockKind then some blockHandler
      else none := by
  have handlers : Registry.builtin =
      [(Node.textKind, textHandler), (Node.paragraphKind, paragraphHandler),
        (Node.lineBreakKind, lineBreakHandler), ("break".toList, lineBreakHandler),
        (Node.hiddenInlineKind, inlineHandler), (Node.hiddenBlockKind, blockHandler)] := rfl
  simp only [handlers, Mapping.get?_cons]
  rfl

/-- An element without a handler is a division around its children, or around its value. -/
theorem renderOther_element (kind value : Json) (children : List Node) (data : Json.Members)
    (body : Text) :
    renderOther (.element kind value children data) body =
      "<div class=\"node-".toList ++ Html.escape kind.text ++ "\">".toList ++
        (if children.isEmpty then Html.escape value.text else body) ++
        "</div>".toList := by
  unfold renderOther
  rfl

/-- An element is rendered by its form. -/
theorem node_element (view : View) (kind value : Json) (children : List Node)
    (data : Json.Members) :
    node .builtin view (.element kind value children data) =
      match formOf kind.text with
      | .text => Html.escape value.text
      | .paragraph => "<p>".toList ++ nodes .builtin view children ++ "</p>".toList
      | .lineBreak => "<br>".toList
      | .other =>
        "<div class=\"node-".toList ++ Html.escape kind.text ++ "\">".toList ++
          (if children.isEmpty then Html.escape value.text else nodes .builtin view children) ++
          "</div>".toList := by
  rw [node, handled]
  rw [Node.kind, get?_builtin, formOf]
  by_cases isText : kind.text = Node.textKind
  · rw [if_pos isText, if_pos isText]
    rfl
  rw [if_neg isText, if_neg isText]
  by_cases isParagraph : kind.text = Node.paragraphKind
  · rw [if_pos isParagraph, if_pos isParagraph]
    rfl
  rw [if_neg isParagraph, if_neg isParagraph]
  by_cases isBreak : kind.text = Node.lineBreakKind
  · rw [if_pos isBreak, if_pos (Or.inl isBreak)]
    rfl
  rw [if_neg isBreak]
  by_cases isAlias : kind.text = "break".toList
  · rw [if_pos isAlias, if_pos (Or.inr isAlias)]
    rfl
  rw [if_neg isAlias, if_neg (not_or.mpr ⟨isBreak, isAlias⟩)]
  have unhandled := renderOther_element kind value children data (nodes .builtin view children)
  -- the handlers of hidden nodes leave an element of their kind to the last rule
  by_cases isInline : kind.text = Node.hiddenInlineKind
  · rw [if_pos isInline]
    exact unhandled
  rw [if_neg isInline]
  by_cases isBlock : kind.text = Node.hiddenBlockKind
  · rw [if_pos isBlock]
    exact unhandled
  rw [if_neg isBlock]
  exact unhandled

/-- A hidden run is rendered by its handler. -/
theorem node_hiddenInline (view : View) (attributes : Json.Members) (payload label : Json) :
    node .builtin view (.hiddenInline attributes payload label) =
      renderInline view attributes.texts payload.text label.text := rfl

/-- A hidden block is rendered by its handler. -/
theorem node_hiddenBlock (view : View) (attributes : Json.Members) (label : Json)
    (children : List Node) :
    node .builtin view (.hiddenBlock attributes label children) =
      renderBlock view attributes.texts label.text children (nodes .builtin view children) := rfl

mutual

/-- Without hidden content a node is rendered as before, where nothing is revealed. -/
theorem node_masked (settings : Settings) : (unit : Node) →
    node .builtin { settings } unit.masked = node .builtin { settings } unit
  | .element kind value children data => by
    rw [Node.masked, node_element, node_element, nodes_maskedAll settings children,
      Node.isEmpty_maskedAll]
  | .hiddenInline attributes payload label => by
    rw [Node.masked, node_hiddenInline, node_hiddenInline]
    simp only [renderInline, inlineProperties, Bool.false_and, Bool.false_eq_true, if_false]
  | .hiddenBlock attributes label children => by
    rw [Node.masked, node_hiddenBlock, node_hiddenBlock]
    simp only [renderBlock, Bool.false_and, Bool.false_eq_true, if_false]

/-- Without hidden content a sequence is rendered as before, where nothing is revealed. -/
theorem nodes_maskedAll (settings : Settings) : (units : List Node) →
    nodes .builtin { settings } (Node.maskedAll units) = nodes .builtin { settings } units
  | [] => rfl
  | unit :: rest => by
    rw [Node.maskedAll, nodes, nodes, node_masked settings unit, nodes_maskedAll settings rest]

end

/-- Two notes that differ in hidden content only are rendered alike to a reader to whom nothing is
    revealed.

    Proof: with nothing revealed a note is rendered as the note with its hidden content masked is,
    by induction on its nodes. -/
theorem nodes_eq_of_maskedAll_eq (settings : Settings) (first second : List Node)
    (same : Node.maskedAll first = Node.maskedAll second) :
    nodes .builtin { reveal := false, settings } first =
      nodes .builtin { reveal := false, settings } second := by
  have firstMasked := nodes_maskedAll settings first
  have secondMasked := nodes_maskedAll settings second
  rw [← firstMasked, same, secondMasked]

/-- A payload behind an attribute that is named like the content, and the units of a block below
    an element of a foreign kind. -/
theorem nodes_eq_of_maskedAll_eq_nested :
    nodes .builtin { reveal := false, settings := {} }
        [.hiddenInline [("content".toList, ['c'])] ['s'] (.string []),
          .element ['q'] ['v'] [.hiddenBlock [] ['m'] [Node.ofText ['t']]] []] =
      nodes .builtin { reveal := false, settings := {} }
        [.hiddenInline [("content".toList, ['c'])] ['<'] (.string []),
          .element ['q'] ['v']
            [.hiddenBlock [] ['m'] [Node.lineBreak, .hiddenInline [] ['u'] (.string [])]] []] :=
  nodes_eq_of_maskedAll_eq {} _ _ rfl

end Render

end HiddenContent
