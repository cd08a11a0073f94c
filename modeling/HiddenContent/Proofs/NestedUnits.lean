import HiddenContent.Proofs.BalancedLines
import HiddenContent.Proofs.LineUnits

/-!
# Units of several lines inside a block

The scan over units reads a marker at the end of a unit only: in the last line of its last text
that is not blank. A unit of several lines may open and close blocks of its own before. When its
lines are balanced, the level it leaves open is the level it found, and the scan agrees as long as
the unit does not end with a closer. If it does, the scan takes that closer for one of its own
levels, although the opener it belongs to stands in the same unit: the block around it ends there,
or a level of it does.
-/

namespace HiddenContent

namespace Text

/-- The last line of a text that is not blank. -/
def lastUnblankLine? (text : Text) : Option Text :=
  text.lines.reverse.find? fun line => !line.strip.isEmpty

/-- The part after the last line feed is the last line. -/
theorem lastLine_append_lineFeed (before last : Text) (single : '\n' ∉ last) :
    lastLine (before ++ '\n' :: last) = (some before, last) := by
  have run : ∀ c ∈ last.reverse, (c != '\n') = true := by
    intro c present
    simpa using fun same : c = '\n' => single (same ▸ List.mem_reverse.mp present)
  have stops : StopsAt (· != '\n') ('\n' :: before.reverse) := by simp [stopsAt_cons]
  have taken := takeWhile_run (· != '\n') last.reverse _ run stops
  have dropped := dropWhile_run (· != '\n') last.reverse _ run stops
  simp [lastLine, taken, dropped]

/-- The lines of a text around the last one that is not blank. -/
theorem exists_of_lastUnblankLine {text line : Text} (found : text.lastUnblankLine? = some line) :
    line.strip ≠ [] ∧ ∃ before blanks, text.lines = before ++ line :: blanks ∧
      ∀ blank ∈ blanks, blank.strip = [] := by
  rw [lastUnblankLine?] at found
  rw [List.find?_eq_some_iff_append] at found
  obtain ⟨unblank, blanks, before, whole, blank⟩ := found
  refine ⟨by simpa using unblank, before.reverse, blanks.reverse, ?_, ?_⟩
  · have lines := congrArg List.reverse whole
    simpa using lines
  · intro other member
    simpa using blank other (List.mem_reverse.mp member)

/-- Without its blanks at the end, a text ends with its last line that is not blank: it is that
    line, or the line stands behind a line feed. -/
theorem stripEnd_of_lastUnblankLine {text line : Text}
    (found : text.lastUnblankLine? = some line) :
    (text.stripEnd = line.stripEnd ∧ text.stripEnd.lastLine = (none, line.stripEnd)) ∨
      ∃ head, text.stripEnd = head ++ '\n' :: line.stripEnd ∧
        text.stripEnd.lastLine = (some head, line.stripEnd) := by
  obtain ⟨unblank, before, blanks, lines, blank⟩ := exists_of_lastUnblankLine found
  have single : '\n' ∉ line.stripEnd := by
    intro present
    exact lineFeed_not_mem_lines text line (by simp [lines]) (stripEnd_subset line present)
  obtain ⟨trail, parts, trailing, ends⟩ := exists_stripEnd line
  have inhabited : line.stripEnd ≠ [] := by
    intro empty
    have stripped := strip_stripEnd line
    rw [empty] at stripped
    exact unblank stripped.symm
  have blankTail : IsBlankRun (trail ++ blanks.flatMap ('\n' :: ·)) := by
    refine List.forall_mem_append.mpr ⟨trailing, ?_⟩
    intro c present
    obtain ⟨other, member, inside⟩ := List.mem_flatMap.mp present
    rcases List.mem_cons.mp inside with rfl | within
    · decide
    · exact (strip_eq_nil_iff _).mp (blank other member) c within
  have whole : text = before.flatMap (· ++ ['\n']) ++ line.stripEnd ++
      (trail ++ blanks.flatMap ('\n' :: ·)) := by
    conv => lhs; rw [← ofLines_lines text, lines, ofLines_around, parts]
    simp
  have stripped : text.stripEnd = before.flatMap (· ++ ['\n']) ++ line.stripEnd := by
    conv => lhs; rw [whole]
    exact stripEnd_append _ _ blankTail ((endsUnblank_append _ _ inhabited).mpr ends)
  rcases List.eq_nil_or_concat before with rfl | ⟨others, last, rfl⟩
  · rw [List.flatMap_nil, List.nil_append] at stripped
    exact Or.inl ⟨stripped, by rw [stripped, lastLine_eq _ single]⟩
  · have behind : text.stripEnd =
        (others.flatMap (· ++ ['\n']) ++ last) ++ '\n' :: line.stripEnd := by
      rw [stripped]
      simp
    exact Or.inr ⟨_, behind, by rw [behind, lastLine_append_lineFeed _ _ single]⟩

/-- A text without such a line is blank. -/
theorem stripEnd_of_no_unblankLine {text : Text} (none : text.lastUnblankLine? = none) :
    text.stripEnd = [] := by
  have blank : ∀ line ∈ text.lines, line.strip = [] := by
    rw [lastUnblankLine?] at none
    simpa using none
  have run : text.IsBlankRun := by
    obtain ⟨line, rest, same⟩ := List.exists_cons_of_ne_nil (lines_ne_nil text)
    rw [← ofLines_lines text, same, ← List.nil_append (line :: rest), ofLines_around,
      List.flatMap_nil, List.nil_append]
    refine List.forall_mem_append.mpr
      ⟨(strip_eq_nil_iff _).mp (blank line (by simp [same])), ?_⟩
    intro c present
    obtain ⟨other, member, inside⟩ := List.mem_flatMap.mp present
    rcases List.mem_cons.mp inside with rfl | within
    · decide
    · exact (strip_eq_nil_iff _).mp (blank other (by simp [same, member])) c within
  simpa using stripEnd_append [] text run (stopsAt_nil _)

end Text

/-- A text that is a closer but for blanks has its marker in its last line that is not blank. -/
theorem isBlockCloser_of_append (before last : Text) (unblank : last.strip ≠ [])
    (closes : isBlockCloser (before ++ '\n' :: last) = true) : isBlockCloser last = true := by
  rw [isBlockCloser, beq_iff_eq] at closes ⊢
  obtain ⟨lead, trail, whole, leading, trailing, trimmed⟩ :=
    Text.exists_strip (before ++ '\n' :: last)
  rw [closes] at whole trimmed
  have notTrailing (part : Text) (inside : last <:+ part) : ¬part.IsBlankRun := by
    intro blank
    exact unblank ((Text.strip_eq_nil_iff _).mpr fun c present => blank c (inside.subset present))
  rcases List.append_eq_append_iff.mp whole with ⟨between, same, rest⟩ | ⟨between, same, rest⟩
  · cases between with
    | nil => simp [Span.marker] at rest
    | cons c more =>
      simp only [List.cons_append, List.cons.injEq] at rest
      rw [rest.2]
      apply Text.strip_between _ _ _ _ trailing trimmed
      intro c present
      exact leading c (by simp [same, present])
  · rcases List.append_eq_append_iff.mp rest with ⟨other, _, after⟩ | ⟨other, split, after⟩
    · exact absurd trailing (notTrailing trail ⟨other ++ ['\n'], by simp [after]⟩)
    · cases other with
      | nil => exact absurd trailing (notTrailing trail ⟨['\n'], after⟩)
      | cons c more =>
        simp only [List.cons_append, List.cons.injEq] at after
        have feed : '\n' ∈ Span.marker := by
          rw [split, ← after.1]
          simp
        exact absurd feed (by decide)

/-- The value of a text, or of the text that a paragraph holds alone. -/
def Node.loneText? : Node → Option Text
  | element kind value children _ =>
    if kind.text = textKind then some value.text
    else
      match children with
      | [child] => if kind.text = paragraphKind ∧ child.isText then some child.valueText else none
      | _ => none
  | hiddenInline _ _ _ => none
  | hiddenBlock _ _ _ => none

/-- A unit with one text is that text, or a paragraph around it. -/
theorem Node.exists_of_loneText {unit : Node} {value : Text}
    (lone : unit.loneText? = some value) :
    (unit.isText = true ∧ unit.valueText = value) ∨
      ∃ literal child data, unit = .element Node.paragraphKind literal [child] data ∧
        child.isText = true ∧ child.valueText = value := by
  cases unit with
  | hiddenInline _ _ _ => simp [Node.loneText?] at lone
  | hiddenBlock _ _ _ => simp [Node.loneText?] at lone
  | element kind literal children data =>
    rw [Node.loneText?.eq_def] at lone
    simp only at lone
    split at lone
    · rename_i text
      exact Or.inl ⟨beq_iff_eq.mpr text, Option.some.inj lone⟩
    · split at lone
      · rename_i child
        split at lone
        · rename_i paragraph
          obtain ⟨named, text⟩ := paragraph
          obtain rfl := Json.eq_string named (by decide)
          exact Or.inr ⟨literal, child, data, rfl, text, Option.some.inj lone⟩
        · simp at lone
      · simp at lone

namespace BlockScan

/-- A value ends with an opener when its last line that is not blank is one. -/
theorem isSome_openerOfValue (value : Text) :
    (openerOfValue? value).isSome =
      value.lastUnblankLine?.any fun line => (BlockOpener.ofLine? line).isSome := by
  rw [openerOfValue?]
  cases found : value.lastUnblankLine? with
  | none =>
    rw [Text.stripEnd_of_no_unblankLine found]
    rfl
  | some line =>
    have shape : (BlockOpener.ofLine? line.stripEnd).isSome =
        (BlockOpener.ofLine? line).isSome := by
      simp [BlockOpener.ofLine?, Text.strip_stripEnd]
    rcases Text.stripEnd_of_lastUnblankLine found with ⟨_, parts⟩ | ⟨head, _, parts⟩ <;>
      simp [parts, shape]

/-- A value ends with a closer when its last line that is not blank is one. -/
theorem isSome_closerOfValue (value : Text) :
    (closerOfValue? value).isSome = value.lastUnblankLine?.any isBlockCloser := by
  rw [closerOfValue?]
  cases found : value.lastUnblankLine? with
  | none =>
    rw [Text.stripEnd_of_no_unblankLine found]
    rfl
  | some line =>
    have shape : isBlockCloser line.stripEnd = isBlockCloser line :=
      (SameShape.stripEnd line).closer
    rcases Text.stripEnd_of_lastUnblankLine found with ⟨whole, parts⟩ | ⟨head, whole, parts⟩
    · simp only [whole] at parts
      simp only [whole, parts, shape, Option.any_some]
      split <;> simp_all
    · simp only [parts, shape, Option.any_some]
      split
      · rename_i closes
        have unblank := (Text.exists_of_lastUnblankLine found).1
        rw [← Text.strip_stripEnd] at unblank
        rw [whole] at closes
        rw [← shape, isBlockCloser_of_append head line.stripEnd unblank closes]
        rfl
      · split <;> simp_all

/-! ## Units with one text -/

/-- A text closes a block when its value does. -/
theorem closerUnit?_of_isText {unit : Node} (text : unit.isText = true) :
    closerUnit? unit = closerOfValue? unit.valueText := by
  cases unit with
  | element kind value children data =>
    have same : kind.text = Node.textKind := beq_iff_eq.mp text
    rw [closerUnit?, if_pos same]
    rfl
  | hiddenInline _ _ _ => exact absurd (text.symm.trans (Node.isText_of_isHidden rfl)) (by simp)
  | hiddenBlock _ _ _ => exact absurd (text.symm.trans (Node.isText_of_isHidden rfl)) (by simp)

/-- A unit with one text ends with what the text ends with. -/
theorem isSome_of_loneText {unit : Node} {value : Text} (lone : unit.loneText? = some value) :
    (openerUnit? unit).isSome = (openerOfValue? value).isSome ∧
      (closerUnit? unit).isSome = (closerOfValue? value).isSome := by
  rcases Node.exists_of_loneText lone with ⟨text, rfl⟩ | ⟨literal, child, data, rfl, text, rfl⟩
  · rw [openerUnit?, if_pos text, closerUnit?_of_isText text, Option.isSome_map]
    exact ⟨rfl, rfl⟩
  · have other : ¬Node.paragraphKind = Node.textKind := by decide
    have noText : ¬(Node.element Node.paragraphKind literal [child] data).isText = true :=
      (by decide : ¬(Node.paragraphKind == Node.textKind) = true)
    rw [openerUnit?, if_neg noText, closerUnit?, Json.text_string, if_neg other, closerOfLast?,
      closerUnit?_of_isText text]
    simp [Node.kind, Node.children, Option.filter, text]

/-- Blank lines open no level and close none. -/
theorem levelOf_of_blank (lines : List Text) (blank : ∀ line ∈ lines, line.strip = []) :
    levelOf lines = 0 := by
  induction lines with
  | nil => rfl
  | cons line rest inductionHypothesis =>
    obtain ⟨first, others⟩ := List.forall_mem_cons.mp blank
    obtain ⟨unopened, unclosed⟩ := not_marked_of_strip_eq_nil first
    simp [levelChange, unopened, unclosed, inductionHypothesis others]

/-- Balanced lines do not end with an opener, whose level they would leave open. -/
theorem unopened_of_balanced {value : Text} (balanced : BalancedLines value.lines) :
    (value.lastUnblankLine?.any fun line => (BlockOpener.ofLine? line).isSome) = false := by
  cases found : value.lastUnblankLine? with
  | none => rfl
  | some line =>
    obtain ⟨_, before, blanks, lines, blank⟩ := Text.exists_of_lastUnblankLine found
    have silent := levelOf_of_blank blanks blank
    have settled := balanced.settled
    have covered := balanced.covered before ((List.mem_inits _ _).mpr ⟨line :: blanks, lines.symm⟩)
    rw [lines, levelOf_append, levelOf_cons, silent] at settled
    rw [Option.any_some, Bool.eq_false_iff]
    intro opens
    rw [levelChange, if_pos opens] at settled
    omega

/-- Inside a block, a unit with one text and balanced lines is collected at the level that it found
    exactly when its last line that is not blank is no closer. Otherwise it closes a level that was
    open before it: the block around it, or one inside that block.

    Proof: balanced lines do not end with an opener, so the scan reads the unit as a closer or not
    at all, and it is read as one exactly when its last line that is not blank is. -/
theorem feed_balanced_iff (settings : Settings) (depth : Nat) (blob : Text) (opener : Node)
    (units : List Node) (unit : Node) (value : Text) (lone : unit.loneText? = some value)
    (balanced : BalancedLines value.lines) :
    (feed settings (collecting depth blob opener units) unit =
        (.removed, collecting depth blob opener (units ++ [unit])) ↔
      value.lastUnblankLine?.any isBlockCloser = false) ∧
    (value.lastUnblankLine?.any isBlockCloser = true →
      ∃ residual, closerUnit? unit = some residual ∧
        feed settings (collecting depth blob opener units) unit =
          if 1 < depth then (.removed, collecting (depth - 1) blob opener (units ++ [unit]))
          else (.replaced [hiddenBlock settings blob (units ++ residual.toList)], scanning)) := by
  obtain ⟨opens, closes⟩ := isSome_of_loneText lone
  rw [isSome_openerOfValue, unopened_of_balanced balanced, Option.isSome_eq_false_iff,
    Option.isNone_iff_eq_none] at opens
  rw [isSome_closerOfValue] at closes
  cases found : closerUnit? unit with
  | none =>
    rw [found, Option.isSome_none] at closes
    simp [feed, opens, found, ← closes]
  | some residual =>
    rw [found, Option.isSome_some] at closes
    have step : feed settings (collecting depth blob opener units) unit =
        if 1 < depth then (.removed, collecting (depth - 1) blob opener (units ++ [unit]))
        else (.replaced [hiddenBlock settings blob (units ++ residual.toList)], scanning) := by
      simp [feed, opens, found]
    refine ⟨?_, fun _ => ⟨residual, rfl, step⟩⟩
    rw [← closes, step]
    constructor
    · intro same
      split at same
      · simp only [Prod.mk.injEq, collecting.injEq, true_and, and_true] at same
        omega
      · simp at same
    · simp

/-- A paragraph that holds a whole block and a line after it is collected. -/
theorem feed_balanced_within :
    feed {} (collecting 1 [] (Node.paragraph [Node.ofText ":::hide".toList]) [])
        (Node.paragraph [Node.ofText ":::hide\nx\n:::\ny\n".toList]) =
      (.removed, collecting 1 [] (Node.paragraph [Node.ofText ":::hide".toList])
        ([] ++ [Node.paragraph [Node.ofText ":::hide\nx\n:::\ny\n".toList]])) :=
  (feed_balanced_iff {} 1 [] (Node.paragraph [Node.ofText ":::hide".toList]) []
    (Node.paragraph [Node.ofText ":::hide\nx\n:::\ny\n".toList]) ":::hide\nx\n:::\ny\n".toList
    (by decide) ⟨by decide, by decide⟩).1.mpr (by decide)

/-- A paragraph that holds a whole block and nothing after it ends the block around it. -/
theorem feed_balanced_ends :
    feed {} scanning (Node.paragraph [Node.ofText ":::hide".toList]) =
        (.removed, collecting 1 [] (Node.paragraph [Node.ofText ":::hide".toList]) []) ∧
      BalancedLines (Text.lines ":::hide\nx\n:::".toList) ∧
      feed {} (collecting 1 [] (Node.paragraph [Node.ofText ":::hide".toList]) [])
          (Node.paragraph [Node.ofText ":::hide\nx\n:::".toList]) =
        (.replaced
            [.hiddenBlock [] (.string []) [Node.paragraph [Node.ofText ":::hide\nx".toList]]],
          scanning) ∧
      feed {} (collecting 1 [] (Node.paragraph [Node.ofText ":::hide".toList]) [])
          (Node.paragraph [Node.ofText ":::hide\nx\n:::".toList]) ≠
        (.removed, collecting 1 [] (Node.paragraph [Node.ofText ":::hide".toList])
          [Node.paragraph [Node.ofText ":::hide\nx\n:::".toList]]) := by
  have ended : feed {} (collecting 1 [] (Node.paragraph [Node.ofText ":::hide".toList]) [])
        (Node.paragraph [Node.ofText ":::hide\nx\n:::".toList]) =
      (.replaced [.hiddenBlock [] (.string []) [Node.paragraph [Node.ofText ":::hide\nx".toList]]],
        scanning) := rfl
  refine ⟨rfl, ⟨by decide, by decide⟩, ended, ?_⟩
  rw [ended]
  simp

end BlockScan

end HiddenContent
