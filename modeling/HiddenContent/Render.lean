import HiddenContent.Html
import HiddenContent.Node
import HiddenContent.Settings

/-!
# Rendering resolved notes

A resolved note is rendered by a handler for each kind of node. A hidden node becomes an element
that shows its label and carries its attributes as data properties. What it hides is rendered only
for a reader to whom it is revealed. A kind without a handler becomes a tagged division around its
children, or around its value when it has no children.
-/

namespace HiddenContent

/-- For whom a note is rendered. -/
structure View where
  reveal : Bool := false
  settings : Settings := {}

/-- How one kind of node is rendered, given its rendered children. -/
abbrev Handler := View → Node → Text → Text

namespace Render

/-- The name of an author's attribute on an element. -/
def dataName (key : Text) : Text := "data-".toList ++ key

/-- The attributes as properties of an element. -/
def dataProperties (attributes : Attributes) : Mapping Text :=
  Mapping.ofList (attributes.map fun (key, value) => (dataName key, value))

/-- The property that marks a hidden run. -/
def inlineProperty : Text := dataName "hidden-inline".toList

/-- The property that marks a hidden block. -/
def blockProperty : Text := dataName "hidden-block".toList

/-- The property that holds the label. -/
def labelProperty : Text := dataName "placeholder".toList

/-- The property that holds revealed content. -/
def contentProperty : Text := dataName "content".toList

/-- The label, or the default when it is empty. -/
def labelOr (label default : Text) : Text := if label.isEmpty then default else label

/-- The properties of a hidden run: the payload only for a reader to whom it is revealed, and then
    whatever the attributes say; never the attribute of that name otherwise. -/
def inlineProperties (view : View) (attributes : Attributes) (payload label : Text) :
    Mapping Text :=
  let shown := ((dataProperties attributes).insert inlineProperty "true".toList).insert
    labelProperty (labelOr label view.settings.inlineLabelDefault)
  if view.reveal then shown.insert contentProperty payload else shown.erase contentProperty

/-- The properties of a hidden block. -/
def blockProperties (view : View) (attributes : Attributes) (label : Text) : Mapping Text :=
  ((dataProperties attributes).insert blockProperty "true".toList).insert
    labelProperty (labelOr label view.settings.blockLabelDefault)

/-- The visible label of a hidden node. -/
def labelBody (label : Text) : Text :=
  "<span class=\"hidden-label\">".toList ++ Html.escape label ++ "</span>".toList

/-- A hidden run. -/
def renderInline (view : View) (attributes : Attributes) (payload label : Text) : Text :=
  let shown := labelBody (labelOr label view.settings.inlineLabelDefault)
  let hidden :=
    if view.reveal && !payload.isEmpty then
      "<span class=\"hidden-payload\">".toList ++ Html.escape payload ++ "</span>".toList
    else
      []
  Html.element "span".toList (inlineProperties view attributes payload label) (shown ++ hidden)

/-- A hidden block around its rendered children. -/
def renderBlock (view : View) (attributes : Attributes) (label : Text) (children : List Node)
    (body : Text) : Text :=
  let shown := labelBody (labelOr label view.settings.blockLabelDefault)
  let hidden :=
    if view.reveal && !children.isEmpty then
      "<div class=\"hidden-payload\">".toList ++ body ++ "</div>".toList
    else
      []
  Html.element "div".toList (blockProperties view attributes label) (shown ++ hidden)

/-- A node of a kind without a handler. -/
def renderOther (node : Node) (body : Text) : Text :=
  "<div class=\"node-".toList ++ Html.escape node.kind ++ "\">".toList ++
    (if node.children.isEmpty then Html.escape node.valueText else body) ++ "</div>".toList

/-- Literal text, escaped. -/
def textHandler : Handler := fun _ node _ => Html.escape node.valueText

/-- A paragraph around its children. -/
def paragraphHandler : Handler := fun _ _ body => "<p>".toList ++ body ++ "</p>".toList

/-- A blank line. -/
def lineBreakHandler : Handler := fun _ _ _ => "<br>".toList

/-- A hidden run; a node of another kind is rendered like one of no known kind. -/
def inlineHandler : Handler := fun view node body =>
  match node with
  | .hiddenInline attributes payload label =>
    renderInline view attributes.texts payload.text label.text
  | other => renderOther other body

/-- A hidden block; a node of another kind is rendered like one of no known kind. -/
def blockHandler : Handler := fun view node body =>
  match node with
  | .hiddenBlock attributes label children =>
    renderBlock view attributes.texts label.text children body
  | other => renderOther other body

end Render

/-- Handlers by the kind of node. -/
abbrev Registry := Mapping Handler

namespace Registry

/-- Use one handler for a kind and its other names. -/
def register (registry : Registry) (kind : Text) (aliases : List Text) (handler : Handler) :
    Registry :=
  (kind :: aliases).foldl (fun handlers name => handlers.insert name handler) registry

/-- The handlers of the kinds that mean something to hidden content. -/
def builtin : Registry :=
  let registry : Registry := []
  let registry := registry.register Node.textKind [] Render.textHandler
  let registry := registry.register Node.paragraphKind [] Render.paragraphHandler
  let registry := registry.register Node.lineBreakKind ["break".toList] Render.lineBreakHandler
  let registry := registry.register Node.hiddenInlineKind [] Render.inlineHandler
  registry.register Node.hiddenBlockKind [] Render.blockHandler

end Registry

namespace Render

/-- Render one node, given its rendered children. -/
def handled (registry : Registry) (view : View) (node : Node) (body : Text) : Text :=
  match registry.get? node.kind with
  | some handler => handler view node body
  | none => renderOther node body

mutual

/-- Render a node. -/
def node (registry : Registry) (view : View) : Node → Text
  | .element kind value children data =>
    handled registry view (.element kind value children data) (nodes registry view children)
  | .hiddenInline attributes payload label =>
    handled registry view (.hiddenInline attributes payload label) []
  | .hiddenBlock attributes label children =>
    handled registry view (.hiddenBlock attributes label children) (nodes registry view children)

/-- Render a sequence. -/
def nodes (registry : Registry) (view : View) : List Node → Text
  | [] => []
  | first :: rest => node registry view first ++ nodes registry view rest

end

end Render

end HiddenContent
