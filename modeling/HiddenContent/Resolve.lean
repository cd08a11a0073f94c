import HiddenContent.BlockScan.Weight
import HiddenContent.Tokens

/-!
# Resolving: the form that is displayed

Resolving turns a sequence of nodes into one in which hidden content has nodes of its own.
Directives and tokens inside a text become hidden nodes between the remaining fragments; a block
on lines of one text becomes a hidden block around a text of its hidden lines; a block over several
units becomes a hidden block that owns them. Every nested sequence is scanned for blocks on
its own, except the children of inline containers. Nodes that stand for hidden content already, and
everything else, stay as they are.

The content of a unit is resolved after its sequence was scanned for blocks. Each part that is
resolved weighs less than the sequence it comes from, and that is why resolving ends.
-/

namespace HiddenContent

namespace Resolve

/-- The kinds whose children are inline content, which holds no blocks of its own. -/
def inlineKinds : List Text :=
  [Node.paragraphKind, "heading".toList, "emphasis".toList, "strong".toList,
    "delete".toList, "link".toList, "tableCell".toList]

/-- True when the children of a kind are scanned for blocks. -/
def scansChildren (kind : Text) : Bool := !inlineKinds.contains kind

/-- The hidden node of a span, whatever its action. -/
def hiddenNode (settings : Settings) (span : Span) : Node :=
  let labelled := settings.labelled span.dialect span.blob
  match span.mode with
  | .inline => .hiddenInline labelled.attributes span.payload labelled.label
  | .block => .hiddenBlock labelled.attributes labelled.label []

/-- A text between hidden nodes, unless it is empty. -/
def fragment (text : Text) : List Node := if text.isEmpty then [] else [Node.ofText text]

/-- The text from `pos` on with a hidden node in place of each span. -/
def splitAtSpans (settings : Settings) (text : Text) : (pos : Nat) → List Span → List Node
  | pos, [] => fragment (text.drop pos)
  | pos, span :: rest =>
    fragment (text.slice pos span.start) ++ hiddenNode settings span ::
      splitAtSpans settings text span.stop rest

/-- A text with a hidden node in place of each directive or token of the configured action. -/
def splitInline (settings : Settings) (text : Text) : List Node :=
  splitAtSpans settings text 0
    ((Tokens.ofText text true).filter fun span => settings.acts span.action)

/-! ## Blocks on the lines of one text -/

/-- A part of a text: visible characters, or a closed block with its hidden lines. -/
inductive TextPart where
  | visible (text : Text)
  | block (opener : BlockOpener) (interior : Text)
deriving DecidableEq, Repr

namespace TextPart

/-- The closed blocks, each after the visible characters before it. The line feed after a closer
    belongs to what follows. -/
def ofRegions (lead : Text) : List Region → List TextPart
  | [] => []
  | region :: rest =>
    visible (lead ++ region.before.flatMap (· ++ ['\n'])) ::
      block region.opener (Text.ofLines region.interior) :: ofRegions ['\n'] rest

/-- The parts of a text, in order. -/
def ofText (action value : Text) : List TextPart :=
  let layout := Layout.ofLines action value.lines
  let lead : Text := if layout.regions.isEmpty then [] else ['\n']
  ofRegions [] layout.regions ++
    [visible (if layout.rest.isEmpty then [] else lead ++ Text.ofLines layout.rest)]

/-- A block among the parts of a text hides the lines of one of its regions. -/
theorem block_mem_ofRegions {lead : Text} {regions : List Region} {opener : BlockOpener}
    {interior : Text} (member : block opener interior ∈ ofRegions lead regions) :
    ∃ region ∈ regions, interior = Text.ofLines region.interior := by
  induction regions generalizing lead with
  | nil => simp [ofRegions] at member
  | cons region rest inductionHypothesis =>
    simp only [ofRegions, List.mem_cons, reduceCtorEq, block.injEq, false_or] at member
    rcases member with same | later
    · exact ⟨region, by simp, same.2⟩
    · obtain ⟨other, inside, same⟩ := inductionHypothesis later
      exact ⟨other, by simp [inside], same⟩

/-- The hidden lines of a block are shorter than the text around it. -/
theorem length_interior_lt {action value : Text} {opener : BlockOpener} {interior : Text}
    (member : block opener interior ∈ ofText action value) : interior.length < value.length := by
  simp only [ofText, List.mem_append, List.mem_singleton, reduceCtorEq, or_false] at member
  obtain ⟨region, inside, rfl⟩ := block_mem_ofRegions member
  have smaller := Layout.size_interior_lt action value.lines region inside
  have joined := Text.length_ofLines region.interior
  rw [Text.linesSize_lines] at smaller
  omega

end TextPart

/-! ## Sequences and what they enclose -/

/-- How each unit of a sequence appears before its content is resolved. -/
def scanned (settings : Settings) (scan : Bool) (nodes : List Node) : List Resolution :=
  if scan then BlockScan.outcomes settings nodes else nodes.map .unchanged

/-- A node that a scan gives back weighs no more than the sequence. -/
theorem weight_scanned {settings : Settings} {scan : Bool} {nodes : List Node}
    {resolution : Resolution} (member : resolution ∈ scanned settings scan nodes)
    {node : Node} (inside : node ∈ resolution.nodes) :
    node.weight ≤ Node.weights nodes := by
  unfold scanned at member
  split at member
  · exact BlockScan.weight_outcomes settings nodes resolution member node inside
  · obtain ⟨unit, present, rfl⟩ := List.mem_map.mp member
    simp only [Resolution.nodes, List.mem_singleton] at inside
    subst inside
    exact Node.weight_le_weights present

/-- The nodes of resolved units, one after the other. -/
def spliced (resolutions : List Resolution) : List Node := resolutions.flatMap Resolution.nodes

/-- Children weigh less than the node around them. -/
theorem weights_children_lt (node : Node) : Node.weights node.children < node.weight := by
  have whole := Node.weight_eq node
  omega

/-- A text of hidden lines weighs less than the node whose value they stand in. -/
theorem weights_interior_lt {settings : Settings} {node : Node} {opener : BlockOpener}
    {interior : Text}
    (member : TextPart.block opener interior ∈
      TextPart.ofText settings.directiveAction node.valueText) :
    Node.weights [Node.ofText interior] < node.weight := by
  have shorter := TextPart.length_interior_lt member
  have whole := Node.weight_eq node
  simp only [Node.weights_cons, Node.weight_ofText, Node.weights_nil]
  omega

/-- A pair is below another when its first part is no larger and its second part is smaller. -/
theorem lex_of_le {first second third fourth : Nat} (bounded : first ≤ third)
    (smaller : second < fourth) :
    Prod.Lex (· < ·) (· < ·) (first, second) (third, fourth) := by
  rcases Nat.lt_or_eq_of_le bounded with below | same
  · exact Prod.Lex.left _ _ below
  · subst same
    exact Prod.Lex.right _ smaller

mutual

/-- Resolve a sequence, unit by unit, with or without a scan for blocks. -/
def sequence (settings : Settings) (scan : Bool) (nodes : List Node) : List Resolution :=
  (scanned settings scan nodes).attach.map fun ⟨resolution, member⟩ =>
    match resolution, member with
    | .unchanged node, _ => content settings node
    | .replaced nodes, _ =>
      .replaced (nodes.attach.flatMap fun ⟨node, _⟩ => emitted settings node)
    | .removed, _ => .removed
termination_by (Node.weights nodes, 2)
decreasing_by
  · exact lex_of_le (weight_scanned ‹_› (by simp [Resolution.nodes])) (by decide)
  · exact lex_of_le (weight_scanned ‹_ ∈ scanned _ _ _› ‹_›) (by decide)

/-- Resolve the content of a unit that the scan left in place. -/
def content (settings : Settings) (node : Node) : Resolution :=
  if node.isHidden then .unchanged node
  else if node.isText then text settings node
  else container settings node
termination_by (node.weight, 1)

/-- Resolve the content of a node that the scan made: what a block owns, or what stands before an
    opener. -/
def emitted (settings : Settings) (node : Node) : List Node :=
  if node.isHidden then
    [node.withChildren (spliced (sequence settings true node.children))]
  else if node.isText then (text settings node).nodes
  else (container settings node).nodes
termination_by (node.weight, 1)
decreasing_by
  · exact Prod.Lex.left _ _ (weights_children_lt node)
  · exact Prod.Lex.right _ (by decide)
  · exact Prod.Lex.right _ (by decide)

/-- Resolve the value of a text. It stays when nothing in it is hidden. -/
def text (settings : Settings) (node : Node) : Resolution :=
  let nodes := (TextPart.ofText settings.directiveAction node.valueText).attach.flatMap
    fun ⟨part, member⟩ =>
      match part, member with
      | .visible shown, _ => splitInline settings shown
      | .block opener interior, _ =>
        [BlockScan.hiddenBlock settings opener.blob
          (if interior.isEmpty then []
          else spliced (sequence settings true [Node.ofText interior]))]
  if nodes.all Node.isText then .unchanged node else .replaced nodes
termination_by (node.weight, 0)
decreasing_by exact Prod.Lex.left _ _ (weights_interior_lt ‹_›)

/-- Resolve what a node encloses. It stays when every child stays. -/
def container (settings : Settings) (node : Node) : Resolution :=
  if node.children.isEmpty then .unchanged node
  else
    let resolved := sequence settings (scansChildren node.kind) node.children
    if resolved.all Resolution.isUnchanged then .unchanged node
    else .replaced [node.withChildren (spliced resolved)]
termination_by (node.weight, 0)
decreasing_by exact Prod.Lex.left _ _ (weights_children_lt node)

end

/-! ## Equations without membership -/

/-- Resolve the content of one unit as the scan yields it. -/
def finished (settings : Settings) : Resolution → Resolution
  | .unchanged node => content settings node
  | .replaced nodes => .replaced (nodes.flatMap (emitted settings))
  | .removed => .removed

/-- The nodes of one part of a text. -/
def partNodes (settings : Settings) : TextPart → List Node
  | .visible shown => splitInline settings shown
  | .block opener interior =>
    [BlockScan.hiddenBlock settings opener.blob
      (if interior.isEmpty then []
      else spliced (sequence settings true [Node.ofText interior]))]

/-- Membership of the elements does not change what a list is mapped to. -/
theorem flatMap_attach {α β : Type} (items : List α) (image : α → List β) :
    (items.attach.flatMap fun item => image item.1) = items.flatMap image := by
  conv => rhs; rw [← List.attach_map_subtype_val items, List.flatMap_map]

/-- A sequence is scanned first, and then each unit is resolved on its own. -/
theorem sequence_eq (settings : Settings) (scan : Bool) (nodes : List Node) :
    sequence settings scan nodes = (scanned settings scan nodes).map (finished settings) := by
  rw [sequence]
  conv => rhs; rw [← List.attach_map_subtype_val (scanned settings scan nodes), List.map_map]
  apply List.map_congr_left
  rintro ⟨resolution, member⟩ _
  cases resolution with
  | unchanged node => rfl
  | replaced nodes =>
    simp only [Function.comp_apply, finished, Resolution.replaced.injEq]
    exact flatMap_attach nodes (emitted settings)
  | removed => rfl

/-- A text is resolved part by part. -/
theorem text_eq (settings : Settings) (node : Node) :
    text settings node =
      let nodes := (TextPart.ofText settings.directiveAction node.valueText).flatMap
        (partNodes settings)
      if nodes.all Node.isText then .unchanged node else .replaced nodes := by
  have parts : ∀ part : {part // part ∈
      TextPart.ofText settings.directiveAction node.valueText},
      (match part.1, part.2 with
        | .visible shown, _ => splitInline settings shown
        | .block opener interior, _ =>
          [BlockScan.hiddenBlock settings opener.blob
            (if interior.isEmpty then []
            else spliced (sequence settings true [Node.ofText interior]))]) =
        partNodes settings part.1 := by
    rintro ⟨part, member⟩
    cases part <;> rfl
  rw [text]
  simp only [← flatMap_attach _ (partNodes settings), ← parts]

/-- What the scan made, if it is not hidden, is resolved like any unit. -/
theorem emitted_eq_content (settings : Settings) {node : Node} (shown : node.isHidden = false) :
    emitted settings node = (content settings node).nodes := by
  have visible : ¬node.isHidden = true := by simp [shown]
  rw [emitted, if_neg visible, content, if_neg visible]
  split <;> rfl

/-- The resolved nodes of a note. -/
def document (settings : Settings) (nodes : List Node) : List Node :=
  spliced (sequence settings true nodes)

end Resolve

end HiddenContent
