import HiddenContent.Proofs.KeptAttributes
import HiddenContent.Proofs.StoredNode

/-!
# Blocks in one text

The blocks of a text are found twice. Resolving cuts the characters of the text: the line feed
before an opener belongs to the part before the block, and the one behind a closer to the part
behind it, so a part may be empty or begin with a line feed. Encoding goes over the lines, puts
one line in the place of each block and joins the lines again.

Both find the same blocks and keep the same characters. With its token line in the place of each
block, the parts of a text are its encoded lines, whatever stands before the first block, between
two of them or behind the last, and also where a block is never closed. So where no part holds
anything else to hide, the resolved text is the encoded one node by node.
-/

namespace HiddenContent

/-! ## Parts of lines -/

namespace Resolve.TextPart

/-- Lines behind something else, which `lead` parts from them: nothing, if there are no lines. -/
def behind (lead : Text) (lines : List Text) : Text :=
  if lines.isEmpty then [] else lead ++ Text.ofLines lines

/-- Every line behind a line feed. -/
theorem behind_lineFeed (lines : List Text) :
    behind ['\n'] lines = lines.flatMap ('\n' :: ·) := by
  cases lines with
  | nil => rfl
  | cons first rest =>
    have joined := Text.ofLines_around [] first rest
    rw [List.flatMap_nil, List.nil_append, List.nil_append] at joined
    simp [behind, joined]

/-- The parts of lines behind something else. The line feed that ends a closer is the lead of the
    lines after it. -/
def ofLines (action lead : Text) (lines : List Text) : List TextPart :=
  let layout := Layout.ofLines action lines
  ofRegions lead layout.regions ++
    [visible (behind (if layout.regions.isEmpty then lead else ['\n']) layout.rest)]

/-- The parts of a text are the parts of its lines with nothing in front. -/
theorem ofText_eq_ofLines (action value : Text) :
    ofText action value = ofLines action [] value.lines := rfl

/-- Lines without a region that closes are one visible part. -/
theorem ofLines_of_none {action lead : Text} {lines : List Text}
    (absent : Region.first? action lines = none) :
    ofLines action lead lines = [visible (behind lead lines)] := by
  simp [ofLines, Layout.ofLines_of_none absent, ofRegions]

/-- The first region is a part behind the visible lines before it, and the line feed of its closer
    leads what follows. -/
theorem ofLines_of_first {action lead : Text} {lines after : List Text} {region : Region}
    (found : Region.first? action lines = some (region, after)) :
    ofLines action lead lines =
      visible (lead ++ region.before.flatMap (· ++ ['\n'])) ::
        block region.opener (Text.ofLines region.interior) :: ofLines action ['\n'] after := by
  simp [ofLines, Layout.ofLines_of_first found, ofRegions]

end Resolve.TextPart

/-! ## Parts and encoded lines -/

namespace Settings

open Resolve (TextPart)

variable (settings : Settings)

/-- What encoding leaves of a part of a text: its visible characters, or the token of its block. -/
def storedPart : TextPart → Text
  | .visible shown => shown
  | .block opener _ => settings.token .block (settings.canonicalize opener.blob)

/-- What is left of the parts of lines are the encoded lines. -/
theorem flatMap_storedPart_ofLines (lead : Text) (lines : List Text) :
    (TextPart.ofLines settings.directiveAction lead lines).flatMap settings.storedPart =
      TextPart.behind lead (settings.encodeLines lines) := by
  induction lines using settings.encodeLines_induction generalizing lead with
  | none lines absent =>
    rw [TextPart.ofLines_of_none absent, settings.encodeLines_of_none absent,
      List.flatMap_singleton]
    rfl
  | first lines region after found inductionHypothesis =>
    -- the token line joins what is before it and what is behind it, with a line feed on each side
    have joined := Text.ofLines_around region.before (settings.encodeRegion region)
      (settings.encodeLines after)
    have inhabited :
        (region.before ++ settings.encodeRegion region :: settings.encodeLines after).isEmpty =
          false := by simp
    rw [TextPart.ofLines_of_first found, settings.encodeLines_of_first found, List.flatMap_cons,
      List.flatMap_cons, inductionHypothesis, TextPart.behind_lineFeed, TextPart.behind, inhabited,
      joined]
    simp [storedPart, encodeRegion]

/-- What is stored for the parts of a text is its form with encoded blocks. -/
theorem flatMap_storedPart_ofText (value : Text) :
    (TextPart.ofText settings.directiveAction value).flatMap settings.storedPart =
      settings.encodeBlocks value := by
  have inhabited : (settings.encodeLines value.lines).isEmpty = false := by
    simpa using settings.encodeLines_ne_nil _ (Text.lines_ne_nil value)
  rw [TextPart.ofText_eq_ofLines, settings.flatMap_storedPart_ofLines, TextPart.behind, inhabited]
  rfl

/-- A text without a closed block is its encoded form. -/
theorem encodeBlocks_of_none {value : Text}
    (absent : Region.first? settings.directiveAction value.lines = none) :
    settings.encodeBlocks value = value := by
  rw [encodeBlocks, settings.encodeLines_of_none absent, Text.ofLines_lines]

/-! ## Nodes and encoded lines -/

/-- What encoding writes for a node of a resolved text: the value of a text, and the token of a
    hidden node. -/
def storedNode : Node → Text
  | .element _ value _ _ => value.text
  | .hiddenInline attributes _ _ => settings.token .inline attributes.texts
  | .hiddenBlock attributes _ _ => settings.token .block attributes.texts

/-- For a text node its value is written. -/
theorem storedNode_of_isText {node : Node} (isText : node.isText = true) :
    settings.storedNode node = node.valueText := by
  cases node with
  | element kind value children data => rfl
  | hiddenInline attributes payload label =>
    exact absurd (isText.symm.trans (Node.isText_of_isHidden rfl)) (by simp)
  | hiddenBlock attributes label children =>
    exact absurd (isText.symm.trans (Node.isText_of_isHidden rfl)) (by simp)

/-- A token is written from the attributes that can be written. -/
theorem token_sanitize (mode : Mode) (attributes : Attributes) :
    settings.token mode (attributes.sanitize settings.forbiddenCharacters) =
      settings.token mode attributes := by
  have again : (attributes.sanitize settings.forbiddenCharacters).sanitize
      settings.forbiddenCharacters = attributes.sanitize settings.forbiddenCharacters := by
    simp [Attributes.sanitize]
  have body : (attributes.sanitize settings.forbiddenCharacters).serialize
      settings.forbiddenCharacters .canonical =
        attributes.serialize settings.forbiddenCharacters .canonical := by
    rw [Attributes.serialize, Attributes.serialize, again]
  simp only [token, tokenOf, body]

/-- Where no label is kept, the token of a block is written from the attributes of its node. -/
theorem storedNode_hiddenBlock (unkept : settings.persistLabel = false) (blob : Text)
    (units : List Node) :
    settings.storedNode (BlockScan.hiddenBlock settings blob units) =
      settings.token .block (settings.canonicalize blob) := by
  have attributes : settings.canonicalize blob =
      (settings.labelled .authored blob).attributes.sanitize settings.forbiddenCharacters := by
    simp [canonicalize, unkept]
  rw [attributes, settings.token_sanitize, BlockScan.hiddenBlock, storedNode,
    Json.Members.texts_ofTexts]

end Settings

namespace Resolve

variable {settings : Settings}

/-- A text with nothing to hide is split into itself, or into nothing when it is empty. -/
theorem splitInline_eq_fragment {shown : Text} (shows : settings.ShowsWhole shown) :
    splitInline settings shown = fragment shown := by
  by_cases empty : shown = []
  · rw [empty, splitInline_nil]
    rfl
  · rw [splitInline_of_showsWhole empty shows]
    simp [fragment, empty]

/-- The nodes of a part in which nothing else is hidden are texts and hidden blocks, and encoding
    writes for them what it leaves of the part. -/
theorem storedNode_partNodes (unkept : settings.persistLabel = false) (part : TextPart)
    (shows : ∀ shown, part = .visible shown → settings.ShowsWhole shown) :
    (∀ node ∈ partNodes settings part, node.isText = true ∨
        ∃ (attributes : Attributes) (label : Text) (children : List Node),
          node = .hiddenBlock attributes label children) ∧
      (partNodes settings part).flatMap settings.storedNode = settings.storedPart part := by
  cases part with
  | visible shown =>
    rw [partNodes, splitInline_eq_fragment (shows shown rfl), fragment]
    by_cases empty : shown.isEmpty = true
    · rw [if_pos empty]
      exact ⟨by simp, (List.isEmpty_iff.mp empty).symm⟩
    · rw [if_neg empty, List.flatMap_singleton]
      exact ⟨List.forall_mem_singleton.mpr (Or.inl rfl), rfl⟩
  | block opener interior =>
    rw [partNodes, List.flatMap_singleton]
    constructor
    · exact List.forall_mem_singleton.mpr (Or.inr ⟨_, _, _, rfl⟩)
    · exact settings.storedNode_hiddenBlock unkept opener.blob _

/-- A text that stays has no closed block. -/
theorem first?_eq_none_of_all_text {value : Text}
    (texts : ((TextPart.ofText settings.directiveAction value).flatMap (partNodes settings)).all
      Node.isText = true) :
    Region.first? settings.directiveAction value.lines = none := by
  cases found : Region.first? settings.directiveAction value.lines with
  | none => rfl
  | some pair =>
    obtain ⟨region, after⟩ := pair
    rw [List.all_flatMap, List.all_eq_true] at texts
    have block := texts _ (TextPart.block_mem_ofText found)
    rw [partNodes, List.all_cons, Node.isText_of_isHidden rfl] at block
    exact absurd block (by simp)

/-- Resolving and encoding agree on the blocks inside one text. Where no label is kept, and no
    visible part of the text has a span of the configured action, the resolved nodes are texts and
    hidden blocks, and with the values of the texts and the tokens of the blocks they are the
    text with its blocks encoded.

    Proof: the parts of a text, each as it is stored, are its encoded lines. A part with nothing to
    hide is resolved to itself, and a block to a node that is stored as its token. -/
theorem text_eq_encodeBlocks (settings : Settings) (unkept : settings.persistLabel = false)
    (node : Node) (isText : node.isText = true)
    (shows : ∀ shown,
      .visible shown ∈ TextPart.ofText settings.directiveAction node.valueText →
        settings.ShowsWhole shown) :
    (∀ resolved ∈ (text settings node).nodes, resolved.isText = true ∨
        ∃ (attributes : Attributes) (label : Text) (children : List Node),
          resolved = .hiddenBlock attributes label children) ∧
      (text settings node).nodes.flatMap settings.storedNode =
        settings.encodeBlocks node.valueText := by
  have parts : ∀ part ∈ TextPart.ofText settings.directiveAction node.valueText,
      ∀ shown, part = .visible shown → settings.ShowsWhole shown := by
    rintro part member shown rfl
    exact shows shown member
  rw [text_eq]
  simp only
  split
  · rename_i texts
    have absent := first?_eq_none_of_all_text texts
    refine ⟨List.forall_mem_singleton.mpr (Or.inl isText), ?_⟩
    rw [Resolution.nodes, List.flatMap_singleton, settings.storedNode_of_isText isText,
      settings.encodeBlocks_of_none absent]
  · rw [Resolution.nodes, List.flatMap_assoc, ← settings.flatMap_storedPart_ofText]
    constructor
    · intro resolved member
      obtain ⟨part, inside, made⟩ := List.mem_flatMap.mp member
      exact (storedNode_partNodes unkept part (parts part inside)).1 resolved made
    · apply List.flatMap_congr
      intro part member
      exact (storedNode_partNodes unkept part (parts part member)).2

/-- Two blocks, at the start of a text and around no line, with a directive of another action
    between them and an opener behind them that is never closed. -/
def mixedBlocks : Text :=
  ":::hide\x7bk=v\x7d\nx\n:::\n:::note b:::\n:::hide\n:::\n:::hide\nc".toList

/-- A text with two regions that close, a directive of another action between them and an opener
    that never closes. -/
theorem text_eq_encodeBlocks_mixed :
    (text {} (Node.ofText mixedBlocks)).nodes.flatMap (Settings.storedNode {}) =
      "[hide-block\x7bk:v\x7d]\n:::note b:::\n[hide-block]\n:::hide\nc".toList := by
  have first : Region.first? "hide".toList mixedBlocks.lines =
      some (⟨[], ⟨"hide".toList, "\x7bk=v\x7d".toList⟩, ["x".toList]⟩,
        [":::note b:::".toList, ":::hide".toList, ":::".toList, ":::hide".toList,
          "c".toList]) := by decide
  have second : Region.first? "hide".toList [":::note b:::".toList, ":::hide".toList,
      ":::".toList, ":::hide".toList, "c".toList] =
      some (⟨[":::note b:::".toList], ⟨"hide".toList, []⟩, []⟩,
        [":::hide".toList, "c".toList]) := by decide
  have rest : Region.first? "hide".toList [":::hide".toList, "c".toList] = none := by decide
  have parts : TextPart.ofText "hide".toList mixedBlocks =
      [.visible [], .block ⟨"hide".toList, "\x7bk=v\x7d".toList⟩ "x".toList,
        .visible "\n:::note b:::\n".toList, .block ⟨"hide".toList, []⟩ [],
        .visible "\n:::hide\nc".toList] := by
    rw [TextPart.ofText_eq_ofLines, TextPart.ofLines_of_first first,
      TextPart.ofLines_of_first second, TextPart.ofLines_of_none rest]
    decide
  have encoded := (text_eq_encodeBlocks {} rfl (Node.ofText mixedBlocks) rfl (by
    intro shown member
    rw [Settings.ShowsWhole, Tokens.ofText_eq_placed]
    change _ ∈ TextPart.ofText "hide".toList mixedBlocks at member
    simp only [parts, List.mem_cons, TextPart.visible.injEq, reduceCtorEq, false_or,
      List.not_mem_nil, or_false] at member
    rcases member with rfl | rfl | rfl <;> decide)).2
  rw [encoded]
  change Settings.encodeBlocks {} mixedBlocks = _
  rw [← Settings.flatMap_storedPart_ofText]
  change (TextPart.ofText "hide".toList mixedBlocks).flatMap _ = _
  rw [parts]
  decide

end Resolve

end HiddenContent
