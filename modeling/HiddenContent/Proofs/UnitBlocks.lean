import HiddenContent.Proofs.NestedUnits
import HiddenContent.Proofs.OpenerMarkers
import HiddenContent.Proofs.ResolvedNodes
import HiddenContent.Proofs.SplitText
import HiddenContent.Proofs.UnitLevels

/-!
# Blocks of units in a resolved note

Behind units that leave no block in progress, an opener unit decides alone what becomes of the
units after it. If they lead down to a closer of its level, the note has one hidden block there,
which owns the units between as a note of their own would have them, and what follows the closer is
resolved as if it stood alone. If they never close its level, the block hides nothing: the marker
of the opener stands in its place, and the units after it are resolved as if they stood alone,
although the scan had collected them.
-/

namespace HiddenContent

namespace Resolve

/-- A note is its outcomes, each resolved on its own. -/
theorem document_eq (settings : Settings) (nodes : List Node) :
    document settings nodes =
      (BlockScan.outcomes settings nodes).flatMap fun outcome =>
        (finished settings outcome).nodes := by
  rw [document, sequence_eq, spliced, List.flatMap_map]
  rfl

/-- The units that a block collects are not seen outside it. -/
theorem flatMap_finished_removed (settings : Settings) {α : Type} (items : List α) :
    ((items.map fun _ => Resolution.removed).flatMap fun outcome =>
      (finished settings outcome).nodes) = [] := by
  rw [List.flatMap_map, List.flatMap_eq_nil_iff]
  intro item _
  rfl

/-- Behind units that leave no block in progress, an opener with nothing before it and the units
    that are collected after it leave only what the scan makes of them. -/
theorem document_of_opened (settings : Settings) (before units collected after : List Node)
    (opening : Node) (found : OpenerUnit) (made : Resolution)
    (outside : (BlockScan.feedAll settings .scanning before).2 = .scanning)
    (bare : found.leading = none)
    (opened : BlockScan.outcomes settings (opening :: units) =
      BlockScan.openerOutcome found :: ((collected.map fun _ => .removed) ++
        made :: BlockScan.outcomes settings after)) :
    document settings (before ++ opening :: units) =
      document settings before ++ (finished settings made).nodes ++ document settings after := by
  have silent : (finished settings (BlockScan.openerOutcome found)).nodes = [] := by
    rw [BlockScan.openerOutcome, bare]
    rfl
  rw [document_eq, BlockScan.outcomes_append settings before _ outside, opened,
    List.flatMap_append, List.flatMap_cons, silent, List.flatMap_append,
    flatMap_finished_removed, List.flatMap_cons, ← document_eq, ← document_eq]
  simp

/-- A block with balanced units inside hides them and nothing else: the units around it are resolved
    as if they stood alone, and so are the units that it owns.

    Proof: the scan collects balanced units and makes one block of them at the closer. It is outside
    before and after, so the units on both sides are scanned as if they stood alone. -/
theorem document_block (settings : Settings) (before body after : List Node)
    (opening closing : Node) (found : OpenerUnit)
    (outside : (BlockScan.feedAll settings .scanning before).2 = .scanning)
    (opens : BlockScan.openerUnit? opening = some found)
    (acts : settings.acts found.opener.action = true) (bare : found.leading = none)
    (balanced : BlockScan.BalancedUnits body)
    (unopened : BlockScan.openerUnit? closing = none)
    (closes : BlockScan.closerUnit? closing = some none) :
    document settings (before ++ opening :: (body ++ closing :: after)) =
      document settings before ++
        .hiddenBlock
            ((Attributes.decode .authored found.opener.blob).labelSplit
              settings.reservedLabelKeys).attributes
            ((Attributes.decode .authored found.opener.blob).labelSplit
              settings.reservedLabelKeys).label
            (document settings body) ::
          document settings after := by
  have block := BlockScan.outcomes_of_balanced settings opens acts after balanced unopened closes
  rw [Option.toList_none, List.append_nil] at block
  have owned : (finished settings
      (.replaced [BlockScan.hiddenBlock settings found.opener.blob body])).nodes =
        [BlockScan.hiddenBlock settings found.opener.blob (document settings body)] := by
    simp only [finished, Resolution.nodes, List.flatMap_singleton, emitted_hiddenBlock]
  rw [document_of_opened settings before _ body after opening found _ outside bare block, owned,
    List.append_assoc]
  rfl

/-- A foreign block, a container and a directive inside a block, behind a closed block and before
    one that stays open. -/
theorem document_block_nested :
    document {} ([Node.paragraph [Node.ofText ":::hide".toList],
          Node.paragraph [Node.ofText "x\n:::".toList]] ++
        Node.paragraph [Node.ofText " :::hide\x7bk=v;text=L\x7d ".toList] ::
          ([Node.ofText "a\n:::note".toList,
              .element "quote".toList .null
                [Node.paragraph [Node.ofText "b :::hide c:::".toList]] [],
              .element "quote".toList .null [Node.paragraph [Node.ofText "d\n:::".toList]] []] ++
            Node.ofText ":::".toList ::
              [Node.paragraph [Node.ofText ":::hide".toList], Node.lineBreak])) =
      document {} [Node.paragraph [Node.ofText ":::hide".toList],
          Node.paragraph [Node.ofText "x\n:::".toList]] ++
        .hiddenBlock [("k".toList, "v".toList)] "L".toList
            (document {} [Node.ofText "a\n:::note".toList,
              .element "quote".toList .null
                [Node.paragraph [Node.ofText "b :::hide c:::".toList]] [],
              .element "quote".toList .null [Node.paragraph [Node.ofText "d\n:::".toList]] []]) ::
          document {} [Node.paragraph [Node.ofText ":::hide".toList], Node.lineBreak] :=
  document_block {} _ _ _ _ _
    ⟨⟨"hide".toList, "\x7bk=v;text=L\x7d".toList⟩, none,
      Node.paragraph [Node.ofText " :::hide\x7bk=v;text=L\x7d".toList]⟩
    rfl rfl rfl rfl ⟨by decide, by decide⟩ rfl rfl

/-! ## A block that never closes -/

/-- A unit whose directives and tokens are taken out and which is otherwise as it was. -/
def splitUnit (settings : Settings) (unit : Node) : List Node :=
  if unit.isText then splitInline settings unit.valueText
  else
    [unit.withChildren (unit.children.flatMap fun child =>
      if child.isText then splitInline settings child.valueText else [child])]

/-- A text unit is split at its spans. -/
theorem splitUnit_ofText (settings : Settings) (value : Text) :
    splitUnit settings (Node.ofText value) = splitInline settings value := by
  have isText : (Node.ofText value).isText = true := rfl
  rw [splitUnit, if_pos isText]
  rfl

/-- A paragraph around one text is a paragraph around what its text is split into. -/
theorem splitUnit_paragraph (settings : Settings) (value : Text) :
    splitUnit settings (Node.paragraph [Node.ofText value]) =
      [Node.paragraph (splitInline settings value)] := by
  have other : ¬(Node.paragraph [Node.ofText value]).isText = true := by
    simp [isText_paragraph]
  rw [splitUnit, if_neg other]
  change [Node.paragraph ([Node.ofText value].flatMap _)] = _
  rw [List.flatMap_singleton]
  rfl

/-- A marker that is given back is resolved by taking out what its line hides. -/
theorem emitted_marker (settings : Settings) {opener : BlockOpener} {node : Node}
    (marker : BlockScan.IsMarker opener node) :
    emitted settings node = splitUnit settings node := by
  cases marker with
  | @text line marks =>
    have isText : (Node.ofText line).isText = true := rfl
    have shown : ¬(Node.ofText line).isHidden = true := Bool.false_ne_true
    rw [emitted, if_neg shown, if_pos isText, splitUnit_ofText,
      nodes_text_line settings line marks.single marks.inhabited]
  | @paragraph line marks =>
    rw [emitted_eq_content settings rfl, splitUnit_paragraph,
      nodes_content_paragraph settings line marks.single marks.inhabited]

/-- A marker has one line, and it stays when nothing in the line is hidden. -/
theorem splitUnit_marker (settings : Settings) {opener : BlockOpener} {node : Node}
    (marker : BlockScan.IsMarker opener node) :
    ∃ line, node.loneText? = some line ∧
      (settings.ShowsWhole line → splitUnit settings node = [node]) := by
  cases marker with
  | @text line marks =>
    refine ⟨line, rfl, ?_⟩
    intro shows
    rw [splitUnit_ofText, splitInline_of_showsWhole marks.inhabited shows]
  | @paragraph line marks =>
    refine ⟨line, rfl, ?_⟩
    intro shows
    rw [splitUnit_paragraph, splitInline_of_showsWhole marks.inhabited shows]

/-- A block that never closes hides nothing: its marker stands in its place, and the units after it
    are resolved as if they stood alone.

    Proof: no unit behind the opener closes its level, so the scan gives the marker back at the end,
    and the units behind it are taken again from the beginning. -/
theorem document_unclosed (settings : Settings) (before rest : List Node) (opening : Node)
    (found : OpenerUnit)
    (outside : (BlockScan.feedAll settings .scanning before).2 = .scanning)
    (opens : BlockScan.openerUnit? opening = some found)
    (acts : settings.acts found.opener.action = true) (bare : found.leading = none)
    (covered : BlockScan.CoveredUnits rest) :
    document settings (before ++ opening :: rest) =
        document settings before ++ splitUnit settings found.marker ++ document settings rest ∧
      ∃ line, found.marker.loneText? = some line ∧
        ((∀ span ∈ Tokens.ofText line true, settings.acts span.action = false) →
          splitUnit settings found.marker = [found.marker]) := by
  have marker := BlockScan.isMarker_of_openerUnit opens
  have given : (finished settings (.replaced [found.marker])).nodes =
      splitUnit settings found.marker := by
    simp only [finished, Resolution.nodes, List.flatMap_singleton, emitted_marker settings marker]
  have block := BlockScan.outcomes_of_covered settings opens acts covered
  refine ⟨?_, splitUnit_marker settings marker⟩
  rw [document_of_opened settings before rest rest rest opening found _ outside bare block, given]

/-- An opener with a token in its attributes stays open: the units after it hold a closed block
    and an opener of their own. -/
theorem document_unclosed_again :
    document {} ([Node.lineBreak] ++
        Node.paragraph [Node.ofText ":::hide\x7b[hide-inline]\x7d".toList] ::
          [Node.paragraph [Node.ofText ":::hide".toList], Node.ofText "x".toList,
            Node.paragraph [Node.ofText ":::".toList],
            Node.paragraph [Node.ofText ":::hide".toList]]) =
      document {} [Node.lineBreak] ++
          splitUnit {} (Node.paragraph [Node.ofText ":::hide\x7b[hide-inline]\x7d".toList]) ++
        document {} [Node.paragraph [Node.ofText ":::hide".toList], Node.ofText "x".toList,
          Node.paragraph [Node.ofText ":::".toList],
          Node.paragraph [Node.ofText ":::hide".toList]] :=
  (document_unclosed {} _ _ _
    ⟨⟨"hide".toList, "\x7b[hide-inline]\x7d".toList⟩, none,
      Node.paragraph [Node.ofText ":::hide\x7b[hide-inline]\x7d".toList]⟩
    rfl rfl rfl rfl (by decide)).1

end Resolve

end HiddenContent
