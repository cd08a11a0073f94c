import HiddenContent.Proofs.BlockLines
import HiddenContent.Proofs.ResolvedNodes
import HiddenContent.Proofs.SplitText

/-!
# Nothing is left to hide

After a note is resolved, no text of it has a span of the configured action, wherever the text
stands: in a paragraph, in a container, in a hidden block, or in what an unclosed block gave back.
A text that changed is made of fragments. A text that stays was read and has no such span, and a
container stays only when everything in it stays. So resolving leads from authored nodes to nodes
in which nothing is left to hide.
-/

namespace HiddenContent

namespace Node

/-- A node in which nothing is left to hide. -/
def Clean (settings : Settings) (node : Node) : Prop := node.Everywhere (ShowsWhole settings)

/-- A node with other children is a text as it was, or not. -/
theorem isText_withChildren (node : Node) (children : List Node) :
    (node.withChildren children).isText = node.isText := by
  cases node <;> rfl

/-- A node given children has no others. -/
theorem children_withChildren_subset (node : Node) (children : List Node) :
    (node.withChildren children).children ⊆ children := by
  cases node <;> simp [withChildren, Node.children]

/-- Clean children make a node clean that is no text. -/
theorem clean_withChildren (settings : Settings) {node : Node} {children : List Node}
    (other : node.isText = false) (inside : ∀ child ∈ children, child.Clean settings) :
    (node.withChildren children).Clean settings := by
  refine .node ?_ ?_
  · exact showsWhole_of_isText_eq_false settings ((isText_withChildren node children).trans other)
  · intro child member
    exact inside child (children_withChildren_subset node children member)

end Node

namespace Resolve

/-- Resolving authored nodes leaves nothing to hide in them. -/
theorem carries_clean (settings : Settings) :
    Carries settings Node.Authored (Node.Clean settings) where
  scan := BlockScan.keeps_authored
  hidden := by
    intro node authored hidden
    rw [authored.here.shown] at hidden
    exact absurd hidden (by simp)
  text := by
    intro node authored literal texts
    refine .node (fun _ => ?_) (by simp [authored.here.childless literal])
    cases found : Region.first? settings.directiveAction node.valueText.lines with
    | none =>
      rw [TextPart.ofText_of_none found, List.flatMap_singleton] at texts
      exact showsWhole_of_all_text settings node.valueText texts
    | some pair =>
      -- a closed block would have made a node that is no text
      obtain ⟨region, after⟩ := pair
      have block := TextPart.block_mem_ofText found
      have hidden := List.all_eq_true.mp texts _
        (List.mem_flatMap.mpr ⟨_, block, List.mem_singleton_self _⟩)
      rw [Node.isText_of_isHidden rfl] at hidden
      exact absurd hidden (by simp)
  split := by
    intro shown node member
    obtain ⟨childless, shows⟩ := isFragment_splitInline settings shown node member
    exact .node shows (by simp [childless])
  block := by
    intro blob owned clean
    exact .node (Node.showsWhole_of_isText_eq_false settings (Node.isText_of_isHidden rfl)) clean
  around := by
    intro node children _ other _ clean
    exact Node.clean_withChildren settings other clean

/-- No text of a resolved note has a span of the configured action, wherever the text stands.

    Proof: the property is carried over from authored nodes. `Carries` asks for one fact for each
    way in which resolving makes a node, and an induction on the weight of a sequence gives all its
    nodes. -/
theorem document_hides_all (settings : Settings) (nodes : List Node)
    (authored : ∀ node ∈ nodes, node.Authored) :
    ∀ node ∈ document settings nodes, node.Everywhere fun part => part.isText = true →
      ∀ span ∈ Tokens.ofText part.valueText true, settings.acts span.action = false :=
  (carries_clean settings).sequence true authored

/-- A block that never closes gives its units back, and the directive in the second is hidden. -/
theorem document_hides_all_unclosed :
    (∀ node ∈ [Node.paragraph [Node.ofText ":::hide".toList],
        Node.paragraph [Node.ofText "a :::hide b::: c".toList]], node.Authored) ∧
      ∀ node ∈ document {} [Node.paragraph [Node.ofText ":::hide".toList],
          Node.paragraph [Node.ofText "a :::hide b::: c".toList]],
        node.Everywhere fun part => part.isText = true →
          ∀ span ∈ Tokens.ofText part.valueText true, Settings.acts {} span.action = false := by
  have paragraph (value : Text) : (Node.paragraph [Node.ofText value]).Authored :=
    Node.authored_paragraph (List.forall_mem_singleton.mpr (Node.authored_ofText value))
  have authored : ∀ node ∈ [Node.paragraph [Node.ofText ":::hide".toList],
      Node.paragraph [Node.ofText "a :::hide b::: c".toList]], node.Authored :=
    List.forall_mem_cons.mpr ⟨paragraph _, List.forall_mem_singleton.mpr (paragraph _)⟩
  exact ⟨authored, document_hides_all {} _ authored⟩

end Resolve

end HiddenContent
