import HiddenContent.Proofs.BalancedLines
import HiddenContent.Proofs.KeptAttributes
import HiddenContent.Proofs.SplitText

/-!
# The author's view and the stored view of one hidden node

A text that is one directive is one hidden node, and so is a text that is one region. Stored, both
are one token, which is one hidden node again. The second node is what `Node.stored` says of the
first: it has no payload and no children, and it has the attributes and the label that a token
keeps.

A directive over several lines can be a region too, when its first line is an opener and its last
line a closer. Then both views take the region. No other region stands in a directive: it would have
a marker in a later line, and the first of those ends the directive.
-/

namespace HiddenContent

/-! ## Regions in a directive -/

/-- Behind a text with a separator, the rest begins after the first separator of the whole. -/
theorem Text.cut?_append_append (separator before after : Text) (inhabited : separator ≠ []) :
    ∃ first rest, cut? separator (before ++ separator ++ after) = some (first, rest ++ after) := by
  have present : separator <:+: before ++ separator := ⟨before, [], by simp⟩
  obtain ⟨⟨first, rest⟩, found⟩ :=
    Option.isSome_iff_exists.mp ((cut?_isSome_iff _ _).mpr present)
  have whole := eq_of_cut _ _ _ _ found
  refine ⟨first, rest, ?_⟩
  rw [whole, List.append_assoc]
  exact cut?_append _ _ _ _ found inhabited (rest ++ after)

namespace Directive

variable (directive : Directive)

/-- A marker after the first line of a directive ends it. -/
theorem eq_nil_of_later_marker (before after : Text)
    (whole : directive.written = before ++ (Span.marker ++ after)) (later : '\n' ∈ before) :
    after = [] := by
  have parts : directive.written =
      Span.marker ++ (directive.action ++ (directive.blob ++ directive.spacing)) ++
        (directive.payload ++ Span.marker) := by
    simp [written, afterAction]
  rw [parts] at whole
  rcases List.append_eq_append_iff.mp whole with ⟨more, _, body⟩ | ⟨more, head, _⟩
  · -- the first marker of the payload and the closing one is the closing one
    have ends := directive.payload_end
    obtain ⟨first, rest, found⟩ := Text.cut?_append_append Span.marker more after (by decide)
    rw [List.append_assoc, ← body, ends, Option.some.injEq, Prod.mk.injEq] at found
    exact (List.append_eq_nil_iff.mp found.2.symm).2
  · have single := directive.lineFeed_not_mem_head
    rw [head] at single
    exact absurd (List.mem_append_left more later) single

/-- A region in a directive is the whole directive: its opener stands on the first line, because
    behind a marker of a later line nothing follows, and nothing follows behind its closer. -/
theorem eq_nil_around_region {action : Text} {region : Region} {after : List Text}
    (found : Region.first? action directive.written.lines = some (region, after)) :
    region.before = [] ∧ after = [] := by
  obtain ⟨opening, closing, lines, acts, closes, _⟩ := Region.exists_of_first found
  have whole := Text.ofLines_lines directive.written
  rw [lines] at whole
  constructor
  · obtain ⟨opens, _⟩ := (BlockStart.acting?_eq_some_iff _ _ _).mp acts
    obtain ⟨begins, _⟩ := (BlockOpener.ofLine?_eq_some_iff _ _).mp opens
    obtain ⟨lead, trail, line, _⟩ := Text.exists_strip opening
    rw [begins] at line
    rw [Text.ofLines_around, line] at whole
    by_contra inhabited
    obtain ⟨first, others, same⟩ := List.exists_cons_of_ne_nil inhabited
    have nothing := directive.eq_nil_of_later_marker
      (region.before.flatMap (· ++ ['\n']) ++ lead) _
      (by simpa only [List.append_assoc] using whole.symm) (by simp [same])
    simp at nothing
  · obtain ⟨lead, trail, line, _⟩ := Text.exists_strip closing
    rw [beq_iff_eq.mp closes] at line
    rw [← List.cons_append, ← List.append_assoc, Text.ofLines_around, line] at whole
    have nothing := directive.eq_nil_of_later_marker
      ((region.before ++ opening :: region.interior).flatMap (· ++ ['\n']) ++ lead) _
      (by simpa only [List.append_assoc] using whole.symm) (by simp)
    cases after with
    | nil => rfl
    | cons next others => simp at nothing

end Directive

/-! ## One token -/

/-- The hidden node that is left of a hidden node when its text is stored: the attributes that can
    be written, the label that is kept, and nothing of what was hidden. -/
def Node.stored (settings : Settings) : Node → Node
  | element kind value children data => element kind value children data
  | hiddenInline attributes _ label =>
    hiddenInline (Attributes.sanitize settings.forbiddenCharacters attributes.texts) (.string [])
      (settings.storedLabel label.text)
  | hiddenBlock attributes label _ =>
    hiddenBlock (Attributes.sanitize settings.forbiddenCharacters attributes.texts)
      (settings.storedLabel label.text) []

/-- The span of a block, as far as its opener says. -/
def BlockOpener.span (opener : BlockOpener) : Span where
  mode := .block
  action := opener.action
  start := 0
  stop := 0
  blob := opener.blob
  payload := []
  isPlaceholder := false

/-- What is left of a block does not depend on what the block owned. -/
theorem BlockScan.stored_hiddenBlock (settings : Settings) (opener : BlockOpener)
    (units : List Node) :
    (hiddenBlock settings opener.blob units).stored settings =
      (Resolve.hiddenNode settings opener.span).stored settings := rfl

/-- Encoding a text that is one form stores one piece. -/
theorem Settings.encodeInline_of_reads (settings : Settings) {text : Text} {reading : Span}
    (reads : (Reader.all true).Reads text reading) :
    settings.encodeInline text = settings.storedPiece (.form text reading) := by
  rw [settings.encodeInline_eq, Piece.cut_written reads, List.flatMap_singleton]

/-- Encoding leaves a token as it is. -/
theorem Settings.encodeInline_token (settings : Settings)
    (sealing : '}' ∈ settings.forbiddenCharacters) (word : settings.directiveAction.IsWordRun)
    (mode : Mode) (attributes : Attributes) :
    settings.encodeInline (settings.token mode attributes) = settings.token mode attributes := by
  have reads := settings.reads_token sealing word mode attributes
  have keeps : settings.hides (settings.tokenSpan mode attributes) = false := by
    simp [hides, tokenSpan]
  rw [settings.encodeInline_of_reads reads, settings.storedPiece_of_keeps _ _ keeps]

namespace Resolve

/-- A text that is one form of the configured action is one hidden node. -/
theorem splitInline_of_reads (settings : Settings) {text : Text} {reading : Span}
    (reads : (Reader.all true).Reads text reading)
    (acts : settings.acts reading.action = true) :
    splitInline settings text = [hiddenNode settings reading] := by
  have start : (reading.moved 0).start = 0 := by simp [Span.moved, reads.start]
  have stop : (reading.moved 0).stop = text.length := by simp [Span.moved, reads.stop]
  have moved : settings.acts (reading.moved 0).action = true := acts
  rw [splitInline, Tokens.ofText_eq_placed, Piece.cut_written reads]
  simp only [Piece.placed, List.filter_cons, moved, if_pos, List.filter_nil, splitAtSpans, start,
    stop, List.drop_length]
  rfl

/-- The empty text splits into nothing. -/
theorem splitInline_nil (settings : Settings) : splitInline settings [] = [] := by
  rw [splitInline, Tokens.ofText_eq_placed]
  rfl

/-- A text that is one region is a block without anything before it or behind it. -/
theorem TextPart.ofText_of_region {action value : Text} {region : Region}
    (found : Region.first? action value.lines = some (region, []))
    (alone : region.before = []) :
    TextPart.ofText action value =
      [.visible [], .block region.opener (Text.ofLines region.interior), .visible []] := by
  have rest : Layout.ofLines action [] = ⟨[], []⟩ := Layout.ofLines_of_none rfl
  simp [ofText, Layout.ofLines_of_first found, rest, ofRegions, alone]

section Token

variable (settings : Settings) (comma : ',' ∈ settings.forbiddenCharacters)
  (colon : ':' ∈ settings.forbiddenCharacters) (sealing : '}' ∈ settings.forbiddenCharacters)
  (known : Attributes.labelKey ∈ settings.reservedLabelKeys)
  (word : settings.directiveAction.IsWordRun)

include comma colon sealing known word

/-- The token of a directive is read as what is left of the node of the directive. -/
theorem splitInline_token (span : Span) (authored : span.isPlaceholder = false) :
    splitInline settings (settings.token span.mode (settings.canonicalize span.blob)) =
      [(hiddenNode settings span).stored settings] := by
  have reads := settings.reads_token sealing word span.mode (settings.canonicalize span.blob)
  have kept := settings.labelled_tokenBlob comma colon known span.blob
  rw [splitInline_of_reads settings reads (by simp [Settings.acts, Settings.tokenSpan])]
  simp only [hiddenNode, Settings.tokenSpan, Span.dialect, if_true, kept, authored]
  cases span.mode <;> simp [Node.stored]

/-- A text that is one directive, with no region in it, is resolved as its node, and its stored
    text as what is left of the node. -/
theorem stored_of_directive (directive : Directive)
    (acts : settings.acts directive.action = true)
    (absent : Region.first? settings.directiveAction directive.written.lines = none) :
    ∃ node, node.isHidden = true ∧
      text settings (.ofText directive.written) = .replaced [node] ∧
      splitInline settings (settings.encode directive.written) = [node.stored settings] := by
  have reads := Reader.reads_directive true directive
  have node := splitInline_of_reads settings reads acts
  have hidden := isHidden_hiddenNode settings (directive.span 0)
  refine ⟨hiddenNode settings (directive.span 0), hidden, ?_, ?_⟩
  · have parts : TextPart.ofText settings.directiveAction
        (Node.ofText directive.written).valueText = [.visible directive.written] :=
      TextPart.ofText_of_none absent
    rw [text_eq, parts]
    simp [partNodes, node, Node.isText_of_isHidden hidden]
  · have hides : settings.hides (directive.span 0) = true :=
      (settings.hides_iff _).mpr ⟨rfl, acts⟩
    have stored : settings.encode directive.written =
        settings.token .inline (settings.canonicalize directive.blob) := by
      rw [Settings.encode, Settings.encodeBlocks, settings.encodeLines_of_none absent,
        Text.ofLines_lines, settings.encodeInline_of_reads reads,
        settings.storedPiece_of_hides _ _ hides]
      rfl
    rw [stored]
    exact splitInline_token settings comma colon sealing known word (directive.span 0) rfl

/-- A text that is one region is resolved as its block, and its stored text as what is left of the
    block. -/
theorem stored_of_region (value : Text) (region : Region) (alone : region.before = [])
    (found : Region.first? settings.directiveAction value.lines = some (region, [])) :
    ∃ node, node.isHidden = true ∧
      text settings (.ofText value) = .replaced [node] ∧
      splitInline settings (settings.encode value) = [node.stored settings] := by
  refine ⟨BlockScan.hiddenBlock settings region.opener.blob
    (if (Text.ofLines region.interior).isEmpty then []
    else spliced (sequence settings true [.ofText (Text.ofLines region.interior)])), rfl, ?_, ?_⟩
  · have parts : TextPart.ofText settings.directiveAction (Node.ofText value).valueText =
        [.visible [], .block region.opener (Text.ofLines region.interior), .visible []] :=
      TextPart.ofText_of_region found alone
    rw [text_eq, parts]
    simp only [List.flatMap_cons, List.flatMap_nil, partNodes, splitInline_nil, List.nil_append,
      List.append_nil, List.all_cons]
    rfl
  · have rest : settings.encodeLines [] = [] := settings.encodeLines_of_none rfl
    have stored : settings.encode value =
        settings.token .block (settings.canonicalize region.opener.blob) := by
      have line : Text.ofLines ([] ++ [settings.encodeRegion region]) =
          settings.token .block (settings.canonicalize region.opener.blob) := by
        simp [Text.ofLines, Settings.encodeRegion]
      rw [Settings.encode, Settings.encodeBlocks, settings.encodeLines_of_first found, alone, rest,
        line, settings.encodeInline_token sealing word]
    rw [stored, BlockScan.stored_hiddenBlock]
    exact splitInline_token settings comma colon sealing known word region.opener.span rfl

end Token

/-- The hidden node of a text that is one directive or one region carries the same data whether the
    text is resolved as its author wrote it or as it is stored: the node keeps its kind, the
    attributes that can be written in their order, and a persisted label that can be written.

    Proof: a directive that is the whole text has nothing around it, also where the same text is a
    region, and a region that is the whole text has none either. So the stored text is one token,
    and what is read of it is what can be written. -/
theorem splitInline_encode_stored (settings : Settings)
    (comma : ',' ∈ settings.forbiddenCharacters) (colon : ':' ∈ settings.forbiddenCharacters)
    (sealing : '}' ∈ settings.forbiddenCharacters)
    (known : Attributes.labelKey ∈ settings.reservedLabelKeys) (value : Text)
    (whole :
      (∃ span, Span.inlineAt? value 0 = some span ∧ span.stop = value.length ∧
        settings.acts span.action = true) ∨
      ∃ region, BlockRegion.find? settings.directiveAction value.lines 0 = some region ∧
        region.openerLine = 0 ∧ region.closerLine = some (value.lines.length - 1)) :
    ∃ node, node.isHidden = true ∧
      text settings (.ofText value) = .replaced [node] ∧
      splitInline settings (settings.encode value) = [node.stored settings] := by
  rcases whole with ⟨span, read, full, acts⟩ | ⟨region, found, first, last⟩
  · rw [Span.inlineAt?, List.drop_zero] at read
    obtain ⟨directive, rest, rfl, rfl⟩ := Directive.exists_of_read value 0 span read
    have nothing : rest = [] := by
      simpa [Directive.span] using full
    subst nothing
    rw [List.append_nil]
    have word : settings.directiveAction.IsWordRun := by
      rw [← beq_iff_eq.mp acts]
      exact directive.action_word
    cases found : Region.first? settings.directiveAction directive.written.lines with
    | none =>
      exact stored_of_directive settings comma colon sealing known word directive acts found
    | some pair =>
      obtain ⟨region, after⟩ := pair
      obtain ⟨alone, rfl⟩ := directive.eq_nil_around_region found
      exact stored_of_region settings comma colon sealing known word _ region alone found
  · obtain ⟨before, opening, interior, _, parts, _, opens, plain, place, _, closes⟩ :=
      BlockRegion.exists_of_closed found last
    have alone : before = [] := by
      apply List.length_eq_zero_iff.mp
      omega
    have nothing : value.lines.drop (value.lines.length - 1 + 1) = [] := by
      apply List.drop_eq_nil_of_le
      omega
    have closed := Region.first?_of_closed before _ opening region.opener _ plain opens closes
    rw [← parts, List.drop_zero, nothing] at closed
    exact stored_of_region settings comma colon sealing known (BlockStart.action_word opens)
      value ⟨before, region.opener, interior⟩ alone closed

/-- A persisted label that can be written, on a directive with a pair that cannot. -/
theorem splitInline_encode_stored_persisted :
    ∃ node : Node, node.isHidden = true ∧
      text { persistLabel := true } (.ofText ":::hide\x7ba=1;b=[;text=x y\x7d s :::".toList) =
        .replaced [node] ∧
      splitInline { persistLabel := true } "[hide-inline\x7ba:1,placeholder:x y\x7d]".toList =
        [node.stored { persistLabel := true }] := by
  have encoded : Settings.encode { persistLabel := true }
      ":::hide\x7ba=1;b=[;text=x y\x7d s :::".toList =
        "[hide-inline\x7ba:1,placeholder:x y\x7d]".toList := by
    have absent : Region.first? "hide".toList
        (Text.lines ":::hide\x7ba=1;b=[;text=x y\x7d s :::".toList) = none := by decide
    rw [Settings.encode, Settings.encodeBlocks, Settings.encodeLines_of_none _ absent,
      Text.ofLines_lines, Settings.encodeInline_eq]
    decide
  rw [← encoded]
  apply splitInline_encode_stored { persistLabel := true } (by decide) (by decide) (by decide)
    (by decide)
  exact Or.inl ⟨_, rfl, by decide, by decide⟩

/-- Settings that forbid a character of the label's own key. -/
def withoutLabelKey : Settings where
  persistLabel := true
  forbiddenCharacters := [',', ':', ';', '=', '{', '}', '[', ']', 'p']

/-- Under such settings no label is kept, though they are fit to store attributes, labels are
    persisted, and the label holds nothing that is forbidden. -/
theorem splitInline_encode_label_lost :
    withoutLabelKey.directiveAction.IsWordRun ∧
      (∀ c ∈ [',', ':', '{', '}'], c ∈ withoutLabelKey.forbiddenCharacters) ∧
      Attributes.labelKey ∈ withoutLabelKey.reservedLabelKeys ∧
      (∃ span, Span.inlineAt? ":::hide\x7btext=x\x7d s:::".toList 0 = some span ∧
        span.stop = ":::hide\x7btext=x\x7d s:::".toList.length ∧
        withoutLabelKey.acts span.action = true) ∧
      withoutLabelKey.persistLabel = true ∧
      (∀ c ∈ "x".toList, c ∉ withoutLabelKey.forbiddenCharacters) ∧
      text withoutLabelKey (.ofText ":::hide\x7btext=x\x7d s:::".toList) =
        .replaced [.hiddenInline [] "s".toList "x".toList] ∧
      splitInline withoutLabelKey
          (withoutLabelKey.encode ":::hide\x7btext=x\x7d s:::".toList) =
        [.hiddenInline [] (.string []) (.string [])] := by
  refine ⟨⟨by decide, List.all_eq_true.mp (by decide)⟩, by simp [withoutLabelKey], by decide,
    ⟨_, rfl, by decide, by decide⟩, rfl, by simp [withoutLabelKey], ?_, ?_⟩
  · rw [text_line _ _ (by decide), splitInline, Tokens.ofText_eq_placed]
    rfl
  · have absent : Region.first? withoutLabelKey.directiveAction
        (Text.lines ":::hide\x7btext=x\x7d s:::".toList) = none := by decide
    rw [Settings.encode, Settings.encodeBlocks, Settings.encodeLines_of_none _ absent,
      Text.ofLines_lines, Settings.encodeInline_eq, splitInline, Tokens.ofText_eq_placed]
    rfl

end Resolve

end HiddenContent
