import HiddenContent.Proofs.BlockLines
import HiddenContent.Proofs.Walk
import HiddenContent.Resolve

/-!
# Texts between hidden nodes

Resolving cuts a text at its spans of the configured action. Each fragment between them keeps the
spans of other actions, and is read again as the same pieces that it was cut from: a form of the
text that lies in the fragment is read in it, and where nothing was read in the text nothing is read
in a beginning of it. So cutting never makes a new span.
-/

namespace HiddenContent

/-- True for a text without a span of the configured action. -/
def Settings.ShowsWhole (settings : Settings) (text : Text) : Prop :=
  ∀ span ∈ Tokens.ofText text true, settings.acts span.action = false

/-- The text of a scan has the spans of its forms. -/
theorem Settings.showsWhole_textOf (settings : Settings) {pieces : List Piece}
    (scan : Piece.Scan (Reader.all true) pieces)
    (foreign : ∀ written reading, Piece.form written reading ∈ pieces →
      settings.acts reading.action = false) : settings.ShowsWhole (Piece.textOf pieces) := by
  intro span member
  rw [Tokens.ofText_eq_placed, Piece.cut_textOf scan] at member
  obtain ⟨before, written, reading, after, rfl, rfl⟩ := Piece.exists_of_mem_placed member
  exact foreign written reading (by simp)

namespace Node

/-- A node that has nothing to hide when it is a text. -/
def ShowsWhole (settings : Settings) (node : Node) : Prop :=
  node.isText = true → settings.ShowsWhole node.valueText

/-- A node that is no text has nothing to hide. -/
theorem showsWhole_of_isText_eq_false (settings : Settings) {node : Node}
    (other : node.isText = false) : node.ShowsWhole settings := by
  intro text
  rw [other] at text
  exact absurd text (by simp)

end Node

namespace Resolve

/-- A span that hides makes a hidden node. -/
theorem isHidden_hiddenNode (settings : Settings) (span : Span) :
    (hiddenNode settings span).isHidden = true := by
  rw [hiddenNode]
  cases span.mode <;> rfl

/-- A span that hides makes a node without children. -/
theorem children_hiddenNode (settings : Settings) (span : Span) :
    (hiddenNode settings span).children = [] := by
  rw [hiddenNode]
  cases span.mode <;> rfl

/-- A text that is split into texts only is not split. -/
theorem showsWhole_of_all_text (settings : Settings) (text : Text)
    (texts : (splitInline settings text).all Node.isText = true) : settings.ShowsWhole text := by
  rw [splitInline] at texts
  cases same : (Tokens.ofText text true).filter fun span => settings.acts span.action with
  | nil =>
    intro span member
    simpa using List.filter_eq_nil_iff.mp same span member
  | cons span rest =>
    rw [same, splitAtSpans, List.all_append, List.all_cons,
      Node.isText_of_isHidden (isHidden_hiddenNode settings span)] at texts
    simp at texts

/-- A node without children that has nothing to hide. -/
structure IsFragment (settings : Settings) (node : Node) : Prop where
  childless : node.children = []
  shows : node.ShowsWhole settings

/-- The node of a span is a fragment. -/
theorem isFragment_hiddenNode (settings : Settings) (span : Span) :
    IsFragment settings (hiddenNode settings span) where
  childless := children_hiddenNode settings span
  shows := Node.showsWhole_of_isText_eq_false settings
    (Node.isText_of_isHidden (isHidden_hiddenNode settings span))

/-- A text with nothing to hide makes fragments only. -/
theorem isFragment_of_mem_fragment {settings : Settings} {text : Text}
    (shows : settings.ShowsWhole text) :
    ∀ node ∈ fragment text, IsFragment settings node := by
  intro node member
  rw [fragment] at member
  split at member
  · simp at member
  · rw [List.mem_singleton.mp member]
    exact ⟨rfl, fun _ => shows⟩

/-- The nodes of a split text are fragments. The text `before` is split already, and the pieces of
    `gap` are not cut. -/
theorem isFragment_splitAtSpans (settings : Settings) (text : Text) (gap pieces : List Piece)
    (scan : Piece.Scan (Reader.all true) (gap ++ pieces))
    (foreign : ∀ written reading, Piece.form written reading ∈ gap →
      settings.acts reading.action = false)
    (before : Text) (whole : text = before ++ (Piece.textOf gap ++ Piece.textOf pieces)) :
    ∀ node ∈ splitAtSpans settings text before.length
        ((Piece.placed (before.length + (Piece.textOf gap).length) pieces).filter
          fun span => settings.acts span.action),
      IsFragment settings node := by
  induction pieces generalizing gap before with
  | nil =>
    have shows := settings.showsWhole_textOf (scan.left (Reader.isLocal_all true)) foreign
    have left : text.drop before.length = Piece.textOf gap := by simp [whole]
    rw [Piece.placed, List.filter_nil, splitAtSpans, left]
    exact isFragment_of_mem_fragment shows
  | cons piece rest inductionHypothesis =>
    have shifted : gap ++ piece :: rest = gap ++ [piece] ++ rest := by simp
    cases piece with
    | plain c =>
      have longer := inductionHypothesis (gap ++ [.plain c]) (shifted ▸ scan)
        (by simpa using foreign) before (by simpa using whole)
      simpa [Piece.placed, Nat.add_assoc] using longer
    | form written reading =>
      have moved (offset : Nat) : settings.acts (reading.moved offset).action =
          settings.acts reading.action := rfl
      cases acts : settings.acts reading.action with
      | false =>
        have longer := inductionHypothesis (gap ++ [.form written reading]) (shifted ▸ scan)
          (by
            intro other found member
            rcases List.mem_append.mp member with inGap | last
            · exact foreign other found inGap
            · rw [List.mem_singleton, Piece.form.injEq] at last
              rw [last.2, acts])
          before (by simpa using whole)
        simpa [Piece.placed, Nat.add_assoc, moved, acts] using longer
      | true =>
        have shows := settings.showsWhole_textOf (scan.left (Reader.isLocal_all true)) foreign
        cases scan.right with
        | take reads later =>
          have slice : text.slice before.length (before ++ Piece.textOf gap).length =
              Piece.textOf gap := by
            simp [whole, Text.slice]
          have start : (reading.moved (before ++ Piece.textOf gap).length).start =
              (before ++ Piece.textOf gap).length := by
            simp [Span.moved, reads.start]
          have stop : (reading.moved (before ++ Piece.textOf gap).length).stop =
              (before ++ Piece.textOf gap ++ written).length := by
            simp [Span.moved, reads.stop, Nat.add_assoc]
          have further := inductionHypothesis [] later (by simp)
            (before ++ Piece.textOf gap ++ written) (by simpa using whole)
          rw [Piece.textOf_nil, List.length_nil, Nat.add_zero] at further
          rw [← List.length_append, Piece.placed, List.filter_cons, moved, acts, if_pos rfl,
            splitAtSpans, start, slice, stop, ← List.length_append]
          intro node member
          rcases List.mem_append.mp member with inGap | onward
          · exact isFragment_of_mem_fragment shows node inGap
          · rcases List.mem_cons.mp onward with rfl | others
            · exact isFragment_hiddenNode settings _
            · exact further node others

/-- The nodes of a text, once it is split, are fragments. -/
theorem isFragment_splitInline (settings : Settings) (text : Text) :
    ∀ node ∈ splitInline settings text, IsFragment settings node := by
  obtain ⟨scan, whole⟩ := Piece.scan_cut (Reader.isLocal_all true) text
  have fragments := isFragment_splitAtSpans settings text [] _ scan (by simp) [] whole.symm
  rw [splitInline, Tokens.ofText_eq_placed]
  exact fragments

/-! ## Blocks in a text -/

/-- A text without a closed block is one part. -/
theorem TextPart.ofText_of_none {action value : Text}
    (absent : Region.first? action value.lines = none) :
    TextPart.ofText action value = [.visible value] := by
  have inhabited : value.lines.isEmpty = false := by
    simpa using Text.lines_ne_nil value
  simp [TextPart.ofText, Layout.ofLines_of_none absent, TextPart.ofRegions, inhabited,
    Text.ofLines_lines]

/-- The first closed block of a text is one of its parts. -/
theorem TextPart.block_mem_ofText {action value : Text} {region : Region} {after : List Text}
    (found : Region.first? action value.lines = some (region, after)) :
    .block region.opener (Text.ofLines region.interior) ∈ TextPart.ofText action value := by
  simp [TextPart.ofText, Layout.ofLines_of_first found, TextPart.ofRegions]

/-! ## A text of one line -/

/-- A line on its own holds no block. -/
theorem TextPart.ofText_line (action line : Text) (single : '\n' ∉ line) :
    TextPart.ofText action line = [.visible line] := by
  have lines : line.lines = [line] := List.splitOn_eq_singleton single
  have absent : Region.first? action [line] = none := by
    cases found : Region.first? action [line] with
    | none => rfl
    | some pair =>
      obtain ⟨region, after⟩ := pair
      obtain ⟨opening, closing, same, _⟩ := Region.exists_of_first found
      have counted := congrArg List.length same
      simp only [List.length_cons, List.length_append, List.length_nil] at counted
      omega
  exact TextPart.ofText_of_none (lines ▸ absent)

/-- A text without anything to hide is not cut. -/
theorem splitInline_of_showsWhole {settings : Settings} {text : Text} (inhabited : text ≠ [])
    (shows : settings.ShowsWhole text) : splitInline settings text = [Node.ofText text] := by
  have none : (Tokens.ofText text true).filter (fun span => settings.acts span.action) = [] :=
    List.filter_eq_nil_iff.mpr fun span member => by simp [shows span member]
  rw [splitInline, none, splitAtSpans, List.drop_zero]
  simp [fragment, inhabited]

/-- A line is resolved by cutting it. -/
theorem text_line (settings : Settings) (line : Text) (single : '\n' ∉ line) :
    text settings (Node.ofText line) =
      if (splitInline settings line).all Node.isText then .unchanged (Node.ofText line)
      else .replaced (splitInline settings line) := by
  have parts : TextPart.ofText settings.directiveAction (Node.ofText line).valueText =
      [.visible line] := TextPart.ofText_line settings.directiveAction line single
  rw [text_eq, parts]
  simp only [List.flatMap_singleton, partNodes]

/-- A text on one line resolves to what splitting it at its spans leaves. -/
theorem nodes_text_line (settings : Settings) (line : Text) (single : '\n' ∉ line)
    (inhabited : line ≠ []) :
    (text settings (Node.ofText line)).nodes = splitInline settings line := by
  rw [text_line settings line single]
  split
  · rename_i texts
    exact (splitInline_of_showsWhole inhabited
      (showsWhole_of_all_text settings line texts)).symm
  · rfl

/-- A paragraph is no text. -/
theorem isText_paragraph (nodes : List Node) : (Node.paragraph nodes).isText = false :=
  (by decide : (Node.paragraphKind == Node.textKind) = false)

/-- A paragraph around a line stays a paragraph around what the line is cut into. -/
theorem nodes_content_paragraph (settings : Settings) (line : Text) (single : '\n' ∉ line)
    (inhabited : line ≠ []) :
    (content settings (Node.paragraph [Node.ofText line])).nodes =
      [Node.paragraph (splitInline settings line)] := by
  have shown : ¬(Node.paragraph [Node.ofText line]).isHidden = true := Bool.false_ne_true
  have parent : ¬(Node.paragraph [Node.ofText line]).children.isEmpty = true := by
    simp [Node.paragraph, Node.children]
  have resolved : sequence settings (scansChildren Node.paragraphKind) [Node.ofText line] =
      [text settings (Node.ofText line)] := by
    have unscanned : scansChildren Node.paragraphKind = false := by decide
    rw [unscanned, sequence_eq]
    simp only [scanned, Bool.false_eq_true, if_false, List.map_cons, List.map_nil, finished]
    rw [content]
    rfl
  rw [content, if_neg shown, if_neg (by simp [isText_paragraph]), container, if_neg parent]
  change Resolution.nodes (if (sequence settings (scansChildren Node.paragraphKind)
    [Node.ofText line]).all Resolution.isUnchanged then _ else .replaced [Node.paragraph
      (spliced (sequence settings (scansChildren Node.paragraphKind) [Node.ofText line]))]) = _
  rw [resolved, text_line settings line single]
  split
  · rename_i texts
    rw [splitInline_of_showsWhole inhabited (showsWhole_of_all_text settings line texts)]
    simp [Resolution.isUnchanged, Resolution.nodes]
  · simp [Resolution.isUnchanged, Resolution.nodes, spliced]

end Resolve

end HiddenContent
