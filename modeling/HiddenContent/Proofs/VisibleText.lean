import HiddenContent.Encoding
import HiddenContent.Proofs.LineUnits
import HiddenContent.Proofs.SplitText

/-!
# The view of a note without its hidden content

A note can be resolved as its author wrote it, or as it is stored. The two ways find what is
hidden differently: encoding works on the whole text, and lets the payload of a directive go over
several lines, while a note is resolved line by line. Nothing hidden in one is shown in the other
as long as inline encoding works line by line too, on calm lines. What is shown of a note is what
its open lines show, and encoding keeps the open lines and what each of them shows.
-/

namespace HiddenContent

namespace Node

mutual

/-- The values of the texts in a node, in order, without those below a hidden node. -/
def shownText : Node → Text
  | element kind value children _ =>
    (if kind.text = textKind then value.text else []) ++ shownTexts children
  | hiddenInline _ _ _ => []
  | hiddenBlock _ _ _ => []

/-- The same for a sequence. -/
def shownTexts : List Node → Text
  | [] => []
  | node :: rest => shownText node ++ shownTexts rest

end

/-- What is shown of nodes, without its blanks. -/
def visible (nodes : List Node) : Text := (shownTexts nodes).filter fun c => !Text.isBlank c

/-- No nodes show nothing. -/
@[simp] theorem shownTexts_nil : shownTexts [] = [] := rfl

/-- What nodes show, one after the other. -/
@[simp] theorem shownTexts_cons (node : Node) (rest : List Node) :
    shownTexts (node :: rest) = shownText node ++ shownTexts rest := rfl

/-- What is shown of nodes that follow one another. -/
@[simp] theorem shownTexts_append (first second : List Node) :
    shownTexts (first ++ second) = shownTexts first ++ shownTexts second := by
  induction first with
  | nil => rfl
  | cons node rest inductionHypothesis => simp [inductionHypothesis]

/-- A text node shows its value. -/
@[simp] theorem shownText_ofText (value : Text) : shownText (ofText value) = value := by
  simp [ofText, shownText]

/-- A paragraph shows what its children show. -/
@[simp] theorem shownText_paragraph (children : List Node) :
    shownText (paragraph children) = shownTexts children := by
  rw [paragraph, shownText, if_neg (by decide), List.nil_append]

/-- What nodes show without blanks is found part by part. -/
theorem visible_append (first second : List Node) :
    visible (first ++ second) = visible first ++ visible second := by
  simp [visible]

end Node

/-! ## The text of one line -/

namespace Resolve

/-- A fragment shows the text it was made of. -/
theorem shownTexts_fragment (text : Text) : Node.shownTexts (fragment text) = text := by
  rw [fragment]
  split
  · rename_i empty
    rw [List.isEmpty_iff.mp empty]
    rfl
  · simp

/-- The node of a span shows nothing. -/
theorem shownText_hiddenNode (settings : Settings) (span : Span) :
    (hiddenNode settings span).shownText = [] := by
  rw [hiddenNode]
  cases span.mode <;> rfl

/-- The texts between hidden nodes are the text without their spans. -/
theorem shownTexts_splitAtSpans (settings : Settings) (text : Text) (pos : Nat)
    (spans : List Span) :
    Node.shownTexts (splitAtSpans settings text pos spans) =
      Span.splice text (fun _ => []) pos spans := by
  induction spans generalizing pos with
  | nil => exact shownTexts_fragment _
  | cons span rest inductionHypothesis =>
    simp [splitAtSpans, Span.splice, shownTexts_fragment, shownText_hiddenNode,
      inductionHypothesis]

/-- A text that is split at its spans shows what its line shows. -/
theorem shownTexts_splitInline (settings : Settings) (text : Text) :
    Node.shownTexts (splitInline settings text) = settings.shownLine text := by
  rw [splitInline]
  rw [shownTexts_splitAtSpans, Tokens.ofText_eq_placed]
  exact settings.splice_shown (Reader.isLocal_all true) text

/-- A paragraph around a line shows what the line shows. -/
theorem shownTexts_content_paragraph (settings : Settings) (line : Text) (single : '\n' ∉ line)
    (inhabited : line ≠ []) :
    Node.shownTexts (content settings (Node.paragraph [Node.ofText line])).nodes =
      settings.shownLine line := by
  rw [nodes_content_paragraph settings line single inhabited]
  simp [shownTexts_splitInline]

/-- A paragraph that the scan gives back shows what its line shows. -/
theorem shownTexts_emitted_paragraph (settings : Settings) (line : Text) (single : '\n' ∉ line)
    (inhabited : line ≠ []) :
    Node.shownTexts (emitted settings (Node.paragraph [Node.ofText line])) =
      settings.shownLine line := by
  rw [emitted_eq_content settings rfl]
  exact shownTexts_content_paragraph settings line single inhabited

/-- A hidden block shows nothing, whatever it owns. -/
theorem shownTexts_emitted_hiddenBlock (settings : Settings) (blob : Text) (units : List Node) :
    Node.shownTexts (emitted settings (BlockScan.hiddenBlock settings blob units)) = [] := by
  have hidden : (BlockScan.hiddenBlock settings blob units).isHidden = true := rfl
  rw [emitted, if_pos hidden]
  rfl

end Resolve

/-! ## The open lines of a note -/

namespace Settings

/-- What is shown of a line, without its blanks. -/
def visibleLine (settings : Settings) (line : Text) : Text :=
  (settings.shownLine line).filter fun c => !Text.isBlank c

/-- Blanks at the end of a line do not count for what it shows. -/
theorem visibleLine_append_blanks (settings : Settings) (line trail : Text)
    (blank : trail.IsBlankRun) :
    settings.visibleLine (line ++ trail) = settings.visibleLine line := by
  have none : (trail.filter fun c => !Text.isBlank c) = [] := by
    rw [List.filter_eq_nil_iff]
    intro c present
    simp [blank c present]
  rw [visibleLine, shownLine_append_blanks settings line trail blank, List.filter_append, none,
    List.append_nil]
  rfl

/-- A line without its last blanks shows the same. -/
theorem visibleLine_stripEnd (settings : Settings) (line : Text) :
    settings.visibleLine line.stripEnd = settings.visibleLine line := by
  obtain ⟨trail, whole, blank, _⟩ := Text.exists_stripEnd line
  conv => rhs; rw [whole]
  exact (settings.visibleLine_append_blanks line.stripEnd trail blank).symm

/-- A blank line shows nothing but blanks. -/
theorem visibleLine_of_blank (settings : Settings) (line : Text) (blank : line.strip = []) :
    settings.visibleLine line = [] := by
  have run := (Text.strip_eq_nil_iff line).mp blank
  rw [← List.nil_append line, settings.visibleLine_append_blanks [] line run]
  rfl

end Settings

namespace Resolve

/-- What outcomes of a scan show once their content is resolved. -/
def visibleOutcomes (settings : Settings) (outcomes : List Resolution) : Text :=
  Node.visible (spliced (outcomes.map (finished settings)))

/-- What outcomes show is found part by part. -/
theorem visibleOutcomes_append (settings : Settings) (first second : List Resolution) :
    visibleOutcomes settings (first ++ second) =
      visibleOutcomes settings first ++ visibleOutcomes settings second := by
  simp [visibleOutcomes, spliced, Node.visible_append]

/-- What outcomes show, one after the other. -/
theorem visibleOutcomes_cons (settings : Settings) (outcome : Resolution)
    (rest : List Resolution) :
    visibleOutcomes settings (outcome :: rest) =
      Node.visible (finished settings outcome).nodes ++ visibleOutcomes settings rest := by
  simp [visibleOutcomes, spliced, Node.visible_append]

/-- Removed units show nothing. -/
theorem visibleOutcomes_removed (settings : Settings) {α : Type} (items : List α) :
    visibleOutcomes settings (items.map fun _ => .removed) = [] := by
  induction items with
  | nil => rfl
  | cons item rest inductionHypothesis =>
    rw [List.map_cons, visibleOutcomes_cons, inductionHypothesis]
    rfl

/-- The unit of a line shows what its line shows. -/
theorem visible_finished_lineUnit (settings : Settings) (line : Text) (single : '\n' ∉ line) :
    Node.visible (finished settings (.unchanged (lineUnit line))).nodes =
      settings.visibleLine line := by
  by_cases blank : line.strip = []
  · rw [lineUnit_of_blank blank, settings.visibleLine_of_blank line blank]
    have text : ¬Node.lineBreak.isText = true := by decide
    have childless : Node.lineBreak.children.isEmpty = true := rfl
    simp only [finished]
    rw [content, if_neg (by simp [Node.lineBreak, Node.isHidden]), if_neg text, container,
      if_pos childless]
    decide
  · have inhabited : line ≠ [] := by
      rintro rfl
      exact blank rfl
    rw [lineUnit_of_inhabited blank]
    simp only [finished, Node.visible,
      shownTexts_content_paragraph settings line single inhabited]
    rfl

/-- What the units of lines show is what the open lines show. -/
theorem visibleOutcomes_lines (settings : Settings) (lines : List Text)
    (single : ∀ line ∈ lines, '\n' ∉ line) :
    visibleOutcomes settings (BlockScan.outcomes settings (lines.map lineUnit)) =
      (openLines settings.directiveAction lines).flatMap settings.visibleLine := by
  induction lines using openLines_induction settings.directiveAction with
  | nil =>
    rw [openLines_nil, List.map_nil, BlockScan.outcomes_nil]
    rfl
  | plain line rest opens inductionHypothesis =>
    have later := inductionHypothesis fun other member => single other (by simp [member])
    have first := single line (by simp)
    rw [openLines_plain _ opens, BlockScan.outcomes_plain settings line rest first opens,
      visibleOutcomes_cons, visible_finished_lineUnit settings line first, later]
    rfl
  | closed line rest opener block opens closes inductionHypothesis =>
    obtain ⟨closer, parts, _⟩ := ClosedBlock.exists_of_ofLines closes
    have later := inductionHypothesis fun other member => single other (by simp [parts, member])
    rw [openLines_closed opens closes,
      BlockScan.outcomes_closed settings line rest single opener opens block closes,
      visibleOutcomes_cons, visibleOutcomes_append, visibleOutcomes_removed,
      visibleOutcomes_cons, later]
    simp only [finished, Resolution.nodes, List.flatMap_cons, List.flatMap_nil, List.append_nil,
      Node.visible, shownTexts_emitted_hiddenBlock]
    rfl
  | unclosed line rest opener opens never inductionHypothesis =>
    have later := inductionHypothesis fun other member => single other (by simp [member])
    have stripped := Text.lineFeed_not_mem_stripEnd (single line (by simp))
    have inhabited : line.stripEnd ≠ [] := by
      intro empty
      have blank : line.strip = [] := by
        rw [← Text.strip_stripEnd, empty]
        rfl
      rw [BlockStart.acting?_eq_none_of_unopened _ (not_marked_of_strip_eq_nil blank).1] at opens
      exact absurd opens (by simp)
    rw [openLines_unclosed opens never,
      BlockScan.outcomes_unclosed settings line rest single opener opens never,
      visibleOutcomes_cons, visibleOutcomes_append, visibleOutcomes_removed,
      visibleOutcomes_cons, later, List.flatMap_cons, ← settings.visibleLine_stripEnd line]
    simp only [finished, Resolution.nodes, List.flatMap_cons, List.flatMap_nil, List.append_nil,
      Node.visible, shownTexts_emitted_paragraph settings _ stripped inhabited]
    rfl

end Resolve

/-- A note shows what its open lines show. -/
theorem visible_document_segment (settings : Settings) (text : Text) :
    Node.visible (Resolve.document settings (segment text)) =
      (openLines settings.directiveAction text.lines).flatMap settings.visibleLine := by
  obtain ⟨lines, blanks, whole, blank, units⟩ := exists_segment text
  have single : ∀ line ∈ lines, '\n' ∉ line := by
    intro line member
    apply Text.lineFeed_not_mem_lines text line
    simp [whole, member]
  have silent : blanks.flatMap settings.visibleLine = [] := by
    rw [List.flatMap_eq_nil_iff]
    intro line member
    exact settings.visibleLine_of_blank line (blank line member)
  have shown := Resolve.visibleOutcomes_lines settings lines single
  rw [whole, openLines_append_blanks _ lines blanks blank, List.flatMap_append, silent,
    List.append_nil, ← shown, units]
  rw [Resolve.document, Resolve.sequence_eq]
  rfl

/-! ## Stored notes -/

namespace Settings

/-- Encoding the blocks of a note changes nothing that it shows. -/
theorem visible_encodeBlocks (settings : Settings)
    (sealing : '}' ∈ settings.forbiddenCharacters) (text : Text) :
    Node.visible (Resolve.document settings (segment (settings.encodeBlocks text))) =
      Node.visible (Resolve.document settings (segment text)) := by
  rw [visible_document_segment, visible_document_segment, lines_encodeBlocks]
  apply settings.flatMap_openLines_encodeLines
  intro word attributes
  have reads := settings.reads_token sealing word .block attributes
  have acts : settings.acts (settings.tokenSpan .block attributes).action = true := by
    simp [Settings.acts, tokenSpan]
  have none := settings.shownPiece_of_acts (settings.token .block attributes) _ acts
  rw [visibleLine, shownLine, Piece.cut_written reads, shownOf_cons, none]
  rfl

/-- A calm line shows what it shows once it is encoded. -/
theorem shownLine_encodeInline (settings : Settings)
    (sealing : '}' ∈ settings.forbiddenCharacters) (line : Text)
    (calm : settings.isCalm line = true) :
    settings.shownLine (settings.encodeInline line) = settings.shownLine line := by
  rw [shownLine, settings.cut_encodeInline sealing line calm, shownOf_storedAs]
  rfl

/-- Two lines that count alike for blocks and show the same. -/
def LooksLike (settings : Settings) (line other : Text) : Prop :=
  SameShape line other ∧ settings.visibleLine line = settings.visibleLine other

/-- Lines that look alike pair by pair show the same. -/
theorem flatMap_visibleLine_of_looksLike (settings : Settings) {lines others : List Text}
    (related : List.Forall₂ settings.LooksLike lines others) :
    lines.flatMap settings.visibleLine = others.flatMap settings.visibleLine := by
  induction related with
  | nil => rfl
  | cons first later inductionHypothesis =>
    rw [List.flatMap_cons, List.flatMap_cons, first.2, inductionHypothesis]

/-- Encoding the inline directives of a note line by line changes nothing that it shows. -/
theorem visible_encodeInline (settings : Settings)
    (sealing : '}' ∈ settings.forbiddenCharacters) (text : Text)
    (byLine : settings.EncodesByLine text) :
    Node.visible (Resolve.document settings (segment (settings.encodeInline text))) =
      Node.visible (Resolve.document settings (segment text)) := by
  have related : List.Forall₂ settings.LooksLike text.lines
      (settings.encodeInline text).lines := by
    apply byLine.alike
    · exact fun line => ⟨⟨rfl, rfl⟩, rfl⟩
    · intro line calm
      refine ⟨settings.sameShape_encodeInline sealing line calm, ?_⟩
      rw [visibleLine, visibleLine, settings.shownLine_encodeInline sealing line calm]
  rw [visible_document_segment, visible_document_segment]
  exact (settings.flatMap_visibleLine_of_looksLike
    (openLines_alike (fun _ _ looks => looks.1) settings.directiveAction related)).symm

/-- What a note shows, it shows as it is stored, when the inline directives of its text without
    blocks are encoded line by line. This is so whenever that text is calm and has every span on one
    line.

    Proof: what is shown of a note is what its open lines show. Encoding the blocks puts a token
    line in the place of each, which shows nothing, and encoding line by line keeps which lines are
    open and what each of them shows. -/
theorem visible_encode (text : Text) :
    (EncodesByLine {} (encodeBlocks {} text) →
      Node.visible (Resolve.document {} (segment text)) =
        Node.visible (Resolve.document {} (segment (encode {} text)))) ∧
    (isCalmByLine {} (encodeBlocks {} text) = true →
      Node.visible (Resolve.document {} (segment text)) =
        Node.visible (Resolve.document {} (segment (encode {} text)))) := by
  have same (byLine : EncodesByLine {} (encodeBlocks {} text)) :
      Node.visible (Resolve.document {} (segment text)) =
        Node.visible (Resolve.document {} (segment (encode {} text))) := by
    rw [encode, visible_encodeInline {} (by decide) _ byLine, visible_encodeBlocks {} (by decide)]
  exact ⟨same, fun calmly => same (encodesByLine_of_calm {} _ calmly)⟩

/-- A note with a block and an inline directive shows the same as it is stored, and so does one with
    a directive of another action over two lines. -/
theorem visible_encode_block_and_inline :
    Node.visible (Resolve.document {} (segment ":::hide\nx\n:::\na :::hide b::: c".toList)) =
        Node.visible (Resolve.document {}
          (segment (encode {} ":::hide\nx\n:::\na :::hide b::: c".toList))) ∧
      Node.visible (Resolve.document {} (segment "a :::hide b::: c\n:::note d\ne:::".toList)) =
        Node.visible (Resolve.document {}
          (segment (encode {} "a :::hide b::: c\n:::note d\ne:::".toList))) := by
  constructor
  · have found : Region.first? "hide".toList
        (Text.lines ":::hide\nx\n:::\na :::hide b::: c".toList) =
        some (⟨[], ⟨"hide".toList, []⟩, ["x".toList]⟩, ["a :::hide b::: c".toList]) := by decide
    have blocks : encodeBlocks {} ":::hide\nx\n:::\na :::hide b::: c".toList =
        "[hide-block]\na :::hide b::: c".toList := by
      rw [encodeBlocks, encodeLines_of_first {} found, encodeLines_of_none {} (by decide)]
      decide
    refine (visible_encode _).2 ?_
    rw [blocks, isCalmByLine, Tokens.ofText_eq_placed]
    decide
  · have blocks : encodeBlocks {} "a :::hide b::: c\n:::note d\ne:::".toList =
        "a :::hide b::: c\n:::note d\ne:::".toList := by
      rw [encodeBlocks, encodeLines_of_none {} (by decide), Text.ofLines_lines]
    have inline : encodeInline {} "a :::hide b::: c\n:::note d\ne:::".toList =
        "a [hide-inline] c\n:::note d\ne:::".toList := by
      rw [encodeInline_eq]
      decide
    have first : "a [hide-inline] c".toList = encodeInline {} "a :::hide b::: c".toList := by
      rw [encodeInline_eq]
      decide
    have before : Text.lines "a :::hide b::: c\n:::note d\ne:::".toList =
        ["a :::hide b::: c".toList, ":::note d".toList, "e:::".toList] := by decide
    have stored : Text.lines "a [hide-inline] c\n:::note d\ne:::".toList =
        ["a [hide-inline] c".toList, ":::note d".toList, "e:::".toList] := by decide
    refine (visible_encode _).1 ?_
    rw [blocks, EncodesByLine, inline, before, stored]
    exact .cons (Or.inr ⟨by decide, first⟩) (.cons (Or.inl rfl) (.cons (Or.inl rfl) .nil))

/-- A payload over two lines is hidden by encoding and shown line by line. -/
theorem visible_encode_ne :
    Node.visible (Resolve.document {} (segment ":::hide a\nb:::".toList)) ≠
      Node.visible (Resolve.document {} (segment (encode {} ":::hide a\nb:::".toList))) := by
  have encoded : encode {} ":::hide a\nb:::".toList = "[hide-inline]".toList := by
    rw [encode, encodeBlocks, encodeLines_of_none {} (by decide), Text.ofLines_lines,
      encodeInline_eq]
    decide
  have plain (lines : List Text)
      (unopened : ∀ line ∈ lines, BlockStart.acting? "hide".toList line = none) :
      openLines "hide".toList lines = lines := by
    have all := openLines_append lines [] unopened
    rwa [List.append_nil, openLines_nil, List.append_nil] at all
  rw [encoded, visible_document_segment, visible_document_segment]
  change (openLines "hide".toList _).flatMap _ ≠ (openLines "hide".toList _).flatMap _
  rw [plain _ (by decide), plain _ (by decide)]
  decide

end Settings

end HiddenContent
