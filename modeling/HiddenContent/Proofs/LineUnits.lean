import HiddenContent.Proofs.BalancedLines
import HiddenContent.Proofs.UnitLevels

/-!
# The scan over units of one line each

A note is cut into one unit for each line. On such units the scan for blocks does what the lines
say: a unit opens and closes what its line opens and closes, and nothing stands before a marker in
its unit. So the units of a block's hidden lines are balanced, the block owns them, and `outcomes`
of the units are determined by the closed blocks among the lines.
-/

namespace HiddenContent

/-- The unit of a line. -/
def lineUnit (line : Text) : Node :=
  if line.strip.isEmpty then Node.lineBreak else Node.paragraph [Node.ofText line]

/-- A blank line is a line break. -/
theorem lineUnit_of_blank {line : Text} (blank : line.strip = []) :
    lineUnit line = Node.lineBreak := by
  simp [lineUnit, blank]

/-- Any other line is a paragraph around its text. -/
theorem lineUnit_of_inhabited {line : Text} (inhabited : line.strip ≠ []) :
    lineUnit line = Node.paragraph [Node.ofText line] := by
  simp [lineUnit, inhabited]

/-- The unit of a line is a line break exactly when the line is blank. -/
theorem Node.isLineBreak_lineUnit (line : Text) :
    (lineUnit line).isLineBreak = line.strip.isEmpty := by
  cases blank : line.strip.isEmpty with
  | true =>
    simp only [lineUnit, blank, if_true]
    rfl
  | false =>
    simp only [lineUnit, blank, Bool.false_eq_true, if_false]
    rfl

/-- A note is segmented into the units of its lines, without the blank ones at the end. -/
theorem exists_segment (text : Text) :
    ∃ lines blanks, text.lines = lines ++ blanks ∧ (∀ line ∈ blanks, line.strip = []) ∧
      segment text = lines.map lineUnit := by
  refine ⟨(text.lines.reverse.dropWhile fun line => line.strip.isEmpty).reverse,
    (text.lines.reverse.takeWhile fun line => line.strip.isEmpty).reverse, ?_, ?_, ?_⟩
  · rw [← List.reverse_append, List.takeWhile_append_dropWhile, List.reverse_reverse]
  · intro line member
    have blank := List.mem_takeWhile_imp (List.mem_reverse.mp member)
    exact List.isEmpty_iff.mp blank
  · rw [segment]
    change ((text.lines.map lineUnit).reverse.dropWhile Node.isLineBreak).reverse = _
    rw [← List.map_reverse, List.dropWhile_map, List.map_reverse]
    congr 3
    funext line
    exact Node.isLineBreak_lineUnit line

/-- The last line of a text without line feeds is the text. -/
theorem Text.lastLine_eq (text : Text) (single : '\n' ∉ text) : text.lastLine = (none, text) := by
  have run : ∀ c ∈ text.reverse, (c != '\n') = true := by
    intro c present
    simpa using fun same : c = '\n' => single (same ▸ List.mem_reverse.mp present)
  have taken := takeWhile_run (· != '\n') text.reverse [] run (stopsAt_nil _)
  have dropped := dropWhile_run (· != '\n') text.reverse [] run (stopsAt_nil _)
  rw [List.append_nil] at taken dropped
  simp [lastLine, taken, dropped]

/-- A line without its last blanks is on one line too. -/
theorem Text.lineFeed_not_mem_stripEnd {line : Text} (single : '\n' ∉ line) :
    '\n' ∉ line.stripEnd := by
  intro present
  exact single (stripEnd_subset line present)

/-- Blanks at the end of a line do not count for blocks. -/
theorem SameShape.stripEnd (line : Text) : SameShape line.stripEnd line where
  opener := by simp [BlockOpener.ofLine?, Text.strip_stripEnd]
  closer := by simp [isBlockCloser, Text.strip_stripEnd]

namespace BlockScan

/-- A paragraph around one text ends with the opener at the end of that text. -/
theorem openerUnit?_paragraph (value : Text) :
    openerUnit? (Node.paragraph [Node.ofText value]) =
      (openerOfValue? value).map fun (opener, line, head) =>
        let leading := withoutLastBreaks (visibleHead head)
        { opener
          leading := if leading.isEmpty then none else some (Node.paragraph leading)
          marker := Node.paragraph [Node.ofText line] } := by
  have text : ¬(Node.paragraph [Node.ofText value]).isText = true :=
    (by decide : ¬(Node.paragraphKind == Node.textKind) = true)
  have kind : (Node.paragraph [Node.ofText value]).kind = Node.paragraphKind := rfl
  rw [openerUnit?, if_neg text, if_pos kind]
  rfl

/-- A unit of a line ends with the opener of the line, with nothing before it. -/
theorem openerUnit?_lineUnit (line : Text) (single : '\n' ∉ line) :
    openerUnit? (lineUnit line) = (BlockOpener.ofLine? line).map fun opener =>
      { opener, leading := none, marker := Node.paragraph [Node.ofText line.stripEnd] } := by
  by_cases blank : line.strip = []
  · rw [lineUnit_of_blank blank, (not_marked_of_strip_eq_nil blank).1]
    rfl
  · have last := Text.lastLine_eq line.stripEnd (Text.lineFeed_not_mem_stripEnd single)
    have read : openerOfValue? line = (BlockOpener.ofLine? line).map fun opener =>
        (opener, line.stripEnd, []) := by
      simp [openerOfValue?, last, BlockOpener.ofLine?, Text.strip_stripEnd]
    rw [lineUnit_of_inhabited blank, openerUnit?_paragraph, read]
    cases BlockOpener.ofLine? line with
    | none => rfl
    | some opener => rfl

/-- A unit of a line ends with a closer when the line is one, and nothing is left of it. -/
theorem closerUnit?_lineUnit (line : Text) (single : '\n' ∉ line) :
    closerUnit? (lineUnit line) = if isBlockCloser line then some none else none := by
  by_cases blank : line.strip = []
  · rw [lineUnit_of_blank blank, (not_marked_of_strip_eq_nil blank).2]
    rfl
  · have last := Text.lastLine_eq line.stripEnd (Text.lineFeed_not_mem_stripEnd single)
    have read : closerOfValue? line = if isBlockCloser line then some none else none := by
      have same : isBlockCloser line.stripEnd = isBlockCloser line :=
        (SameShape.stripEnd line).closer
      simp only [closerOfValue?, last, same]
    rw [lineUnit_of_inhabited blank]
    have text : closerUnit? (Node.ofText line) = closerOfValue? line := by
      rw [Node.ofText, closerUnit?, Json.text_string, if_pos rfl, Json.text_string]
    have other : Node.paragraphKind ≠ Node.textKind := by decide
    rw [Node.paragraph, closerUnit?, Json.text_string, if_neg other, closerOfLast?, text, read]
    split <;> rfl

/-! ## Levels of the units of lines -/

/-- The unit of a line opens and closes what the line opens and closes. -/
theorem unitsLevel_lineUnit (line : Text) (single : '\n' ∉ line) :
    unitsLevel [lineUnit line] = levelChange line := by
  have opens : opensLevel (lineUnit line) = (BlockOpener.ofLine? line).isSome := by
    rw [opensLevel, openerUnit?_lineUnit line single, Option.isSome_map]
  have closes : (closerUnit? (lineUnit line)).isSome = isBlockCloser line := by
    rw [closerUnit?_lineUnit line single]
    cases isBlockCloser line <;> rfl
  rw [unitsLevel, List.countP_singleton, List.countP_singleton, closesLevel, opens, closes,
    levelChange]
  cases (BlockOpener.ofLine? line).isSome <;> cases isBlockCloser line <;> rfl

/-- The units of lines open and close the levels that the lines do. -/
theorem unitsLevel_lines (lines : List Text) (single : ∀ line ∈ lines, '\n' ∉ line) :
    unitsLevel (lines.map lineUnit) = levelOf lines := by
  induction lines with
  | nil => rfl
  | cons line rest inductionHypothesis =>
    obtain ⟨first, others⟩ := List.forall_mem_cons.mp single
    rw [List.map_cons, unitsLevel_cons, unitsLevel_lineUnit line first,
      inductionHypothesis others, levelOf_cons]

/-- The units of lines close no level open before them when the lines do not. -/
theorem coveredUnits_lines (lines : List Text) (single : ∀ line ∈ lines, '\n' ∉ line)
    (covered : ∀ first ∈ lines.inits, 0 ≤ levelOf first) : CoveredUnits (lines.map lineUnit) := by
  intro first member
  rw [List.map_inits, List.mem_map] at member
  obtain ⟨part, inLines, rfl⟩ := member
  have within := ((List.mem_inits _ _).mp inLines).subset
  rw [unitsLevel_lines part fun line inside => single line (within inside)]
  exact covered part inLines

/-! ## The outcomes of the units of lines -/

/-- The opener that a unit of a line brings to a scan outside any block. -/
theorem openerUnit?_acting (settings : Settings) (line : Text) (single : '\n' ∉ line) :
    ((openerUnit? (lineUnit line)).filter fun found => settings.acts found.opener.action) =
      (BlockStart.acting? settings.directiveAction line).map fun opener =>
        { opener, leading := none, marker := Node.paragraph [Node.ofText line.stripEnd] } := by
  rw [openerUnit?_lineUnit line single, BlockStart.acting?]
  cases BlockOpener.ofLine? line with
  | none => rfl
  | some opener =>
    simp only [Option.map_some, Option.filter_some, Settings.acts]
    split <;> rfl

/-- The unit of an opener line opens a block, with nothing before the opener. -/
theorem openerUnit?_of_acting (settings : Settings) {line : Text} (single : '\n' ∉ line)
    {opener : BlockOpener}
    (opens : BlockStart.acting? settings.directiveAction line = some opener) :
    openerUnit? (lineUnit line) =
        some ⟨opener, none, Node.paragraph [Node.ofText line.stripEnd]⟩ ∧
      settings.acts opener.action = true := by
  have acting := openerUnit?_acting settings line single
  rw [opens, Option.map_some] at acting
  exact Option.filter_eq_some_iff.mp acting

/-- Without units there are no outcomes. -/
theorem outcomes_nil (settings : Settings) : outcomes settings [] = [] := by
  simp [outcomes, feedAll, finish]

/-- A line that opens no block of the configured action stays in its place. -/
theorem feedAll_plain (settings : Settings) (line : Text) (rest : List Text)
    (single : '\n' ∉ line)
    (plain : BlockStart.acting? settings.directiveAction line = none) :
    feedAll settings scanning ((line :: rest).map lineUnit) =
      (.unchanged (lineUnit line) :: (feedAll settings scanning (rest.map lineUnit)).1,
        (feedAll settings scanning (rest.map lineUnit)).2) := by
  have acting := openerUnit?_acting settings line single
  rw [plain, Option.map_none] at acting
  have passed : feed settings scanning (lineUnit line) =
      (.unchanged (lineUnit line), scanning) := (Step.outside acting).feed_eq
  simp only [List.map_cons, feedAll, passed]

/-- A line that opens nothing stays where it is. -/
theorem outcomes_plain (settings : Settings) (line : Text) (rest : List Text)
    (single : '\n' ∉ line)
    (plain : BlockStart.acting? settings.directiveAction line = none) :
    outcomes settings ((line :: rest).map lineUnit) =
      .unchanged (lineUnit line) :: outcomes settings (rest.map lineUnit) := by
  simp only [outcomes, feedAll_plain settings line rest single plain, List.cons_append]

/-- A closed block yields one hidden block, at its closer. -/
theorem feedAll_closed (settings : Settings) (line : Text) (rest : List Text)
    (single : ∀ other ∈ line :: rest, '\n' ∉ other) (opener : BlockOpener)
    (opens : BlockStart.acting? settings.directiveAction line = some opener) (block : ClosedBlock)
    (closes : ClosedBlock.ofLines? 0 rest = some block) :
    feedAll settings scanning ((line :: rest).map lineUnit) =
      (.removed :: (block.interior.map (fun _ => .removed) ++
        .replaced [hiddenBlock settings opener.blob (block.interior.map lineUnit)] ::
          (feedAll settings scanning (block.after.map lineUnit)).1),
        (feedAll settings scanning (block.after.map lineUnit)).2) := by
  obtain ⟨first, others⟩ := List.forall_mem_cons.mp single
  obtain ⟨opened, acts⟩ := openerUnit?_of_acting settings first opens
  obtain ⟨closing, rfl, ends⟩ := ClosedBlock.exists_of_ofLines closes
  obtain ⟨settled, covered⟩ := ClosedBlock.balanced_interior closes
  have interior : ∀ other ∈ block.interior, '\n' ∉ other := by
    intro other member
    exact others other (by simp [member])
  have last := others closing (by simp)
  have balanced : BalancedUnits (block.interior.map lineUnit) :=
    ⟨(unitsLevel_lines _ interior).trans settled, coveredUnits_lines _ interior covered⟩
  have unopened : openerUnit? (lineUnit closing) = none := by
    rw [openerUnit?_lineUnit closing last, BlockOpener.ofLine?_of_closer ends]
    rfl
  have closed : closerUnit? (lineUnit closing) = some none := by
    rw [closerUnit?_lineUnit closing last, if_pos ends]
  have found := feedAll_of_balanced settings opened acts (block.after.map lineUnit) balanced
    unopened closed
  rw [List.map_cons, List.map_append, List.map_cons, found, List.map_map, Option.toList_none,
    List.append_nil]
  rfl

/-- A block that closes is taken out from its opener line to its closer, and the hidden block stands
    in the place of the closer. -/
theorem outcomes_closed (settings : Settings) (line : Text) (rest : List Text)
    (single : ∀ other ∈ line :: rest, '\n' ∉ other) (opener : BlockOpener)
    (opens : BlockStart.acting? settings.directiveAction line = some opener) (block : ClosedBlock)
    (closes : ClosedBlock.ofLines? 0 rest = some block) :
    outcomes settings ((line :: rest).map lineUnit) =
      .removed :: (block.interior.map (fun _ => .removed) ++
        .replaced [hiddenBlock settings opener.blob (block.interior.map lineUnit)] ::
          outcomes settings (block.after.map lineUnit)) := by
  simp only [outcomes, feedAll_closed settings line rest single opener opens block closes,
    List.cons_append, List.append_assoc]

/-- A block that never closes leaves the scan inside it, with every line after its opener. -/
theorem feedAll_unclosed (settings : Settings) (line : Text) (rest : List Text)
    (single : ∀ other ∈ line :: rest, '\n' ∉ other) (opener : BlockOpener)
    (opens : BlockStart.acting? settings.directiveAction line = some opener)
    (never : ClosedBlock.ofLines? 0 rest = none) :
    feedAll settings scanning ((line :: rest).map lineUnit) =
      (.removed :: rest.map (fun _ => .removed),
        collecting (1 + unitsLevel (rest.map lineUnit)).toNat opener.blob
          (Node.paragraph [Node.ofText line.stripEnd]) (rest.map lineUnit)) := by
  obtain ⟨first, others⟩ := List.forall_mem_cons.mp single
  obtain ⟨opened, acts⟩ := openerUnit?_of_acting settings first opens
  have covered := ClosedBlock.levels_of_none never
  simp only [Int.natCast_zero, Int.zero_add] at covered
  have found := feedAll_opened settings opened acts (coveredUnits_lines rest others covered)
  rw [List.map_cons, found, List.map_map]
  rfl

/-- A block that never closes gives back its opener, without the blanks after it, and the scan
    starts again behind it. -/
theorem outcomes_unclosed (settings : Settings) (line : Text) (rest : List Text)
    (single : ∀ other ∈ line :: rest, '\n' ∉ other) (opener : BlockOpener)
    (opens : BlockStart.acting? settings.directiveAction line = some opener)
    (never : ClosedBlock.ofLines? 0 rest = none) :
    outcomes settings ((line :: rest).map lineUnit) =
      .removed :: (rest.map (fun _ => .removed) ++
        .replaced [Node.paragraph [Node.ofText line.stripEnd]] ::
          outcomes settings (rest.map lineUnit)) := by
  rw [outcomes, feedAll_unclosed settings line rest single opener opens never]
  simp only [finish, List.cons_append]
  rfl

end BlockScan

end HiddenContent
