import HiddenContent.Proofs.Assignments
import HiddenContent.Proofs.JsonNodes
import HiddenContent.Proofs.ResolvedNodes
import Mathlib

/-!
# Nodes survive being written and read

A node that was read is restorable, whatever its members are, and so is everything that resolving
makes of restorable nodes: the texts, paragraphs and hidden nodes that it adds have texts as
members, and a node around other children keeps its own members. So whatever reading and resolving
can make is written as an object with distinct names, and that object is read as the same node.
-/

namespace HiddenContent

namespace Node

/-! ## Nodes that are made -/

/-- A text node is restored. -/
theorem restorable_ofText (value : Text) : (ofText value).Restorable := by
  have form : HasForm (ofText value) :=
    .element (Json.hasDistinctNames_string _) (Json.hasDistinctNames_string _) (by decide)
      (by decide) isForeignData_nil
  exact .node form (by simp [ofText, children])

/-- A paragraph over restorable children is restored. -/
theorem restorable_paragraph {children : List Node}
    (inside : ∀ child ∈ children, child.Restorable) : (paragraph children).Restorable := by
  have form : HasForm (paragraph children) :=
    .element (Json.hasDistinctNames_string _) Json.hasDistinctNames_null (by decide) (by decide)
      isForeignData_nil
  exact .node form inside

/-- Attributes of texts with distinct keys are an object with distinct names. -/
theorem hasDistinctNames_ofTexts {attributes : Attributes}
    (once : (Mapping.keys attributes).Nodup) :
    (Json.object (Json.Members.ofTexts attributes)).HasDistinctNames := by
  refine Json.hasDistinctNames_object.mpr ⟨Json.Members.areDistinct_ofTexts once, ?_⟩
  intro member inside
  obtain ⟨_, _, rfl⟩ := List.mem_map.mp inside
  exact Json.hasDistinctNames_string _

/-- A hidden inline node is restored when none of its attributes comes twice. -/
theorem restorable_hiddenInline {attributes : Attributes} (payload label : Text)
    (once : (Mapping.keys attributes).Nodup) :
    (hiddenInline attributes payload label).Restorable :=
  .node (.hiddenInline (hasDistinctNames_ofTexts once) (Json.hasDistinctNames_string _)
    (Json.hasDistinctNames_string _)) (by simp [children])

/-- A hidden block over restorable children is restored when none of its attributes comes twice. -/
theorem restorable_hiddenBlock {attributes : Attributes} (label : Text) {children : List Node}
    (once : (Mapping.keys attributes).Nodup) (inside : ∀ child ∈ children, child.Restorable) :
    (hiddenBlock attributes label children).Restorable :=
  .node (.hiddenBlock (hasDistinctNames_ofTexts once) (Json.hasDistinctNames_string _)) inside

/-- A restorable node is restorable around other children. -/
theorem restorable_withChildren {node : Node} {children : List Node}
    (restorable : node.Restorable) (inside : ∀ child ∈ children, child.Restorable) :
    (node.withChildren children).Restorable := by
  cases restorable.here with
  | element named valued notInline notBlock data =>
    exact .node (.element named valued notInline notBlock data) inside
  | hiddenInline distinct hidden shown =>
    exact .node (.hiddenInline distinct hidden shown) (by simp [withChildren, Node.children])
  | hiddenBlock distinct shown => exact .node (.hiddenBlock distinct shown) inside

/-- The scan makes restorable nodes of restorable ones. -/
theorem keeps_restorable : BlockScan.Keeps Restorable where
  text := restorable_ofText
  paragraph := fun _ => restorable_paragraph
  inside := fun _ restorable => restorable.inside
  trimmed := fun _ _ restorable _ _ _ => restorable_withChildren restorable

end Node

/-- The attributes of a blob have each key once beside its label. -/
theorem Settings.nodup_labelled (settings : Settings) (dialect : Dialect) (blob : Text) :
    (Mapping.keys (settings.labelled dialect blob).attributes).Nodup := by
  have once : (Mapping.keys (Attributes.decode dialect blob)).Nodup := by
    rw [Attributes.decode, Attributes.extract]
    split
    · exact List.nodup_nil
    · exact Mapping.nodup_keys_ofList _
  exact once.sublist (List.filter_sublist.map Prod.fst)

namespace Resolve

variable {settings : Settings}

/-! ## Everything that resolving makes is restorable -/

/-- The nodes of a split text are texts and hidden nodes of spans. -/
theorem restorable_splitAtSpans (text : Text) (pos : Nat) (spans : List Span) :
    ∀ node ∈ splitAtSpans settings text pos spans, node.Restorable := by
  have fragments : ∀ part : Text, ∀ node ∈ fragment part, node.Restorable := by
    intro part node member
    rw [fragment] at member
    split at member
    · simp at member
    · rw [List.mem_singleton.mp member]
      exact Node.restorable_ofText part
  induction spans generalizing pos with
  | nil => exact fragments _
  | cons span rest inductionHypothesis =>
    rw [splitAtSpans]
    refine List.forall_mem_append.mpr ⟨fragments _, List.forall_mem_cons.mpr ⟨?_, ?_⟩⟩
    · have once := settings.nodup_labelled span.dialect span.blob
      cases mode : span.mode with
      | inline =>
        simp only [hiddenNode, mode]
        exact Node.restorable_hiddenInline _ _ once
      | block =>
        simp only [hiddenNode, mode]
        exact Node.restorable_hiddenBlock _ once (by simp)
    · exact inductionHypothesis span.stop

/-- Resolving leads from restorable nodes to restorable nodes. -/
theorem carries_restorable (settings : Settings) :
    Carries settings Node.Restorable Node.Restorable where
  scan := Node.keeps_restorable
  hidden := fun _ restorable _ => restorable
  text := fun _ restorable _ _ => restorable
  split := fun shown => restorable_splitAtSpans shown 0 _
  block := fun _ _ owned => Node.restorable_hiddenBlock _ (settings.nodup_labelled _ _) owned
  around := fun _ _ restorable _ _ each => Node.restorable_withChildren restorable each

end Resolve

namespace Node

/-! ## Writing and reading -/

/-- A node that reading and resolving can make: a node that is read, one that resolving makes of
    such nodes, one inside such a node, or such a node around others. -/
inductive Made : Node → Prop where
  | read {json : Json} {node : Node} (distinct : json.HasDistinctNames)
      (read : ofJson? json = .ok node) : Made node
  | resolved (settings : Settings) (scan : Bool) {nodes : List Node} {node : Node}
      (made : ∀ unit ∈ nodes, Made unit)
      (member : node ∈ Resolve.spliced (Resolve.sequence settings scan nodes)) : Made node
  | inside {node child : Node} (made : Made node) (member : child ∈ node.children) : Made child
  | around {node : Node} {children : List Node} (made : Made node)
      (each : ∀ child ∈ children, Made child) : Made (node.withChildren children)

/-- Whatever reading and resolving make is restored: by induction on how it was made. -/
theorem Made.restorable {node : Node} (made : node.Made) : node.Restorable := by
  induction made with
  | read distinct read => exact (restorable_of_read distinct).1 _ read
  | resolved settings scan _ member restorable =>
    exact (Resolve.carries_restorable settings).sequence scan restorable _ member
  | inside _ member restorable => exact restorable.inside _ member
  | around _ _ restorable each => exact restorable_withChildren restorable each

/-- A node that a JSON text holds is written and read back, since a text holds no name twice. -/
theorem ofJson?_toJson_of_ofText {text : Text} {json : Json} {node : Node}
    (held : Json.ofText? text = some json) (read : ofJson? json = .ok node) :
    ofJson? (toJson node) = .ok node :=
  (Made.read (Json.hasDistinctNames_of_ofText? held) read).restorable.back

/-- Every node that reading and resolving can make is written as an object with distinct names and
    read back as it was: a hidden node with attributes, payload and label of any value in their
    order, an element with its kind, value, children and data. And what was read from any object is
    written in one way from then on.

    Proof: reading gives a node one of three forms, and resolving keeps them. In each form the names
    under which a node is written are apart, so every look-up finds what was written there; the
    induction is on the node, with its children read back first. -/
theorem ofJson?_toJson :
    (∀ node : Node, node.Made →
        (toJson node).HasDistinctNames ∧ ofJson? (toJson node) = .ok node) ∧
      ∀ json : Json, json.HasDistinctNames → ∀ node, ofJson? json = .ok node →
        (toJson node).HasDistinctNames ∧
          (ofJson? (toJson node)).map toJson = .ok (toJson node) := by
  constructor
  · intro node made
    exact ⟨made.restorable.hasDistinctNames, made.restorable.back⟩
  · intro json distinct node read
    have restorable := (Made.read distinct read).restorable
    refine ⟨restorable.hasDistinctNames, ?_⟩
    rw [restorable.back]
    rfl

/-- A paragraph with a further member around a last child and a hidden run whose attributes hold a
    number and are named by a truth value, and whose label is null. -/
def oddParagraph (last : Node) : Node :=
  element paragraphKind .null
    [hiddenInline [("k".toList, .integer 1), (.boolean true, "v".toList)] (.string []) .null, last]
    [("indent".toList, .integer 2)]

/-- Such a paragraph is read from an object that has its members in another order and the attributes
    as a list of pairs. It is written and read back, before and after its last child is resolved to
    a hidden run. -/
theorem ofJson?_toJson_oddParagraph :
    (ofJson? (toJson (oddParagraph (ofText ":::hide\x7bk=v\x7d b:::".toList)))).map toJson =
        .ok (toJson (oddParagraph (ofText ":::hide\x7bk=v\x7d b:::".toList))) ∧
      ofJson? (toJson (oddParagraph
          (hiddenInline [("k".toList, "v".toList)] "b".toList (.string [])))) =
        .ok (oddParagraph (hiddenInline [("k".toList, "v".toList)] "b".toList (.string []))) := by
  let text : Json := .object
    [(memberType, textKind), (memberValue, ":::hide\x7bk=v\x7d b:::".toList)]
  let hidden : Json := .object [(memberLabel, .null), (memberType, hiddenInlineKind),
    (memberAttributes,
      .array [.array ["k".toList, .integer 1], .array [.boolean true, "v".toList]])]
  let json : Json := .object [("indent".toList, .integer 2), (memberType, paragraphKind),
    (memberChildren, .array [hidden, text])]
  have textDistinct : text.HasDistinctNames :=
    Json.hasDistinctNames_object.mpr ⟨by decide, by simp⟩
  have hiddenDistinct : hidden.HasDistinctNames :=
    Json.hasDistinctNames_object.mpr ⟨by decide, by simp [Json.hasDistinctNames_array]⟩
  have distinct : json.HasDistinctNames := by
    have apart : [Json.Name.string "indent".toList, memberType, memberChildren].Pairwise
        (fun first second => first.same second = false) := by decide
    refine Json.hasDistinctNames_object.mpr ⟨Json.Members.areDistinct_iff.mpr apart, ?_⟩
    simp [Json.hasDistinctNames_array, textDistinct, hiddenDistinct]
  have read : ofJson? json =
      .ok (oddParagraph (ofText ":::hide\x7bk=v\x7d b:::".toList)) := rfl
  have resolved : Resolve.document {} [oddParagraph (ofText ":::hide\x7bk=v\x7d b:::".toList)] =
      [oddParagraph (hiddenInline [("k".toList, "v".toList)] "b".toList (.string []))] := by cbv
  have made : Made (oddParagraph (hiddenInline [("k".toList, "v".toList)] "b".toList
      (.string []))) := by
    refine .resolved {} true (List.forall_mem_singleton.mpr (.read distinct read)) ?_
    change _ ∈ Resolve.document {} _
    rw [resolved]
    exact List.mem_singleton_self _
  exact ⟨(ofJson?_toJson.2 _ distinct _ read).2, (ofJson?_toJson.1 _ made).2⟩

end Node

end HiddenContent
