import HiddenContent.Report.Encoding
import HiddenContent.Resolve.Progress

/-!
# Reports on resolving

The scan for blocks reports its transitions, at the lowest level when the settings ask for it,
and a block that never closes. Reading the attributes of a hidden node reports as everywhere. The
messages of a unit come in the order of the work on it: the scan of the unit, then its content.
-/

namespace HiddenContent

namespace BlockScan

/-- A transition of the scan. -/
def transition (settings : Settings) (wording : Text) : Message :=
  ⟨if settings.debugMode then 1 else 3, wording⟩

/-- The scan begins to collect. -/
def opened (settings : Settings) (opener : BlockOpener) : Message :=
  transition settings
    ("SCANNING -> COLLECTING (".toList ++ opener.action ++ opener.blob ++ [')'])

/-- The scan stops collecting with a number of hidden units. -/
def closed (settings : Settings) (hidden : Nat) : Message :=
  transition settings
    ("COLLECTING -> SCANNING (".toList ++ Text.decimal hidden ++ " unit(s) hidden)".toList)

/-- A block that never closed. -/
def unterminated : Message :=
  ⟨2, "Unterminated block directive, restoring collected content".toList⟩

/-- What taking a unit reports. -/
def feedReport (settings : Settings) (state : BlockScan) (unit : Node) : List Message :=
  match state with
  | scanning =>
    match (openerUnit? unit).filter fun found => settings.acts found.opener.action with
    | none => []
    | some found => [opened settings found.opener]
  | collecting depth blob _ units =>
    if (openerUnit? unit).isSome || 1 < depth then []
    else
      match closerUnit? unit with
      | none => []
      | some residual =>
        settings.labelledReport .authored blob ++
          [closed settings (units.length + residual.toList.length)]

/-- What taking several units reports, unit by unit. -/
def feedAllReport (settings : Settings) : BlockScan → List Node → List (List Message)
  | _, [] => []
  | state, unit :: rest =>
    feedReport settings state unit :: feedAllReport settings (feed settings state unit).2 rest

/-- What ending a sequence reports, one list for each unit that it gives back. -/
def finishReport (settings : Settings) (state : BlockScan) : List (List Message) :=
  match state with
  | scanning => []
  | collecting _ _ _ units =>
    [unterminated] ::
      (feedAllReport settings scanning units ++
        finishReport settings (feedAll settings scanning units).2)
termination_by state.pending
decreasing_by
  have fewer := pending_feedAll settings scanning units
  simp only [pending] at fewer ⊢
  omega

/-- What scanning a sequence reports, one list for each of its outcomes. -/
def outcomesReport (settings : Settings) (units : List Node) : List (List Message) :=
  feedAllReport settings scanning units ++
    finishReport settings (feedAll settings scanning units).2

end BlockScan

namespace Resolve

/-- What scanning a sequence reports, one list for each unit as it appears. -/
def scannedReport (settings : Settings) (scan : Bool) (nodes : List Node) :
    List (List Message) :=
  if scan then BlockScan.outcomesReport settings nodes else nodes.map fun _ => []

/-- What splitting a text reports. -/
def splitReport (settings : Settings) (text : Text) : List Message :=
  ((Tokens.ofText text true).filter fun span => settings.acts span.action).flatMap fun span =>
    settings.labelledReport span.dialect span.blob

mutual

/-- What resolving a sequence reports. -/
def sequenceReport (settings : Settings) (scan : Bool) (nodes : List Node) : List Message :=
  ((scannedReport settings scan nodes).zip (scanned settings scan nodes).attach).flatMap
    fun (messages, ⟨resolution, member⟩) =>
      messages ++
        match resolution, member with
        | .unchanged node, _ => contentReport settings node
        | .replaced nodes, _ => nodes.attach.flatMap fun ⟨node, _⟩ => emittedReport settings node
        | .removed, _ => []
termination_by (Node.weights nodes, 2)
decreasing_by
  · exact lex_of_le (weight_scanned ‹_› (by simp [Resolution.nodes])) (by decide)
  · exact lex_of_le (weight_scanned ‹_ ∈ scanned _ _ _› ‹_›) (by decide)

/-- What resolving the content of a unit reports. -/
def contentReport (settings : Settings) (node : Node) : List Message :=
  if node.isHidden then []
  else if node.isText then textReport settings node
  else containerReport settings node
termination_by (node.weight, 1)

/-- What resolving the content of a node that the scan made reports. -/
def emittedReport (settings : Settings) (node : Node) : List Message :=
  if node.isHidden then sequenceReport settings true node.children
  else if node.isText then textReport settings node
  else containerReport settings node
termination_by (node.weight, 1)
decreasing_by
  · exact Prod.Lex.left _ _ (weights_children_lt node)
  · exact Prod.Lex.right _ (by decide)
  · exact Prod.Lex.right _ (by decide)

/-- What resolving the value of a text reports. -/
def textReport (settings : Settings) (node : Node) : List Message :=
  (TextPart.ofText settings.directiveAction node.valueText).attach.flatMap
    fun ⟨part, member⟩ =>
      match part, member with
      | .visible shown, _ => splitReport settings shown
      | .block opener interior, _ =>
        settings.labelledReport .authored opener.blob ++
          if interior.isEmpty then []
          else sequenceReport settings true [Node.ofText interior]
termination_by (node.weight, 0)
decreasing_by exact Prod.Lex.left _ _ (weights_interior_lt ‹_›)

/-- What resolving what a node encloses reports. -/
def containerReport (settings : Settings) (node : Node) : List Message :=
  if node.children.isEmpty then []
  else sequenceReport settings (scansChildren node.kind) node.children
termination_by (node.weight, 0)
decreasing_by exact Prod.Lex.left _ _ (weights_children_lt node)

end

/-- What resolving one unit reports once the scan has seen it. -/
def finishedReport (settings : Settings) : Resolution → List Message
  | .unchanged node => contentReport settings node
  | .replaced nodes => nodes.flatMap (emittedReport settings)
  | .removed => []

/-- What resolving a note reports. -/
def documentReport (settings : Settings) (nodes : List Node) : List Message :=
  sequenceReport settings true nodes ++
    [⟨3, "Resolved ".toList ++ Text.decimal nodes.length ++ " top-level node(s) into ".toList ++
      Text.decimal (document settings nodes).length⟩]

end Resolve

namespace Progress

/-- What taking the next unit reports. -/
def feedReport (settings : Settings) (progress : Progress) (node : Node) : List Message :=
  if progress.scan then
    BlockScan.feedReport settings progress.state node ++
      Resolve.finishedReport settings (BlockScan.feed settings progress.state node).1
  else
    Resolve.contentReport settings node

/-- What taking several units reports. -/
def feedAllReport (settings : Settings) (progress : Progress) : List Node → List Message
  | [] => []
  | node :: rest =>
    feedReport settings progress node ++
      feedAllReport settings (feed settings progress node).2 rest

/-- What ending the sequence reports. -/
def finishReport (settings : Settings) (progress : Progress) : List Message :=
  ((BlockScan.finishReport settings progress.state).zip
    (BlockScan.finish settings progress.state)).flatMap fun (messages, resolution) =>
      messages ++ Resolve.finishedReport settings resolution

/-- What taking all units and ending the sequence reports. -/
def runReport (settings : Settings) (progress : Progress) (nodes : List Node) : List Message :=
  feedAllReport settings progress nodes ++
    finishReport settings (feedAll settings progress nodes).2

end Progress

end HiddenContent
