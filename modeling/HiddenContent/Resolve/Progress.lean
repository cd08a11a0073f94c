import HiddenContent.Resolve

/-!
# Resolving unit by unit

A sequence can be resolved while its units arrive. The progress of a sequence is the state of
its scan for blocks, if it is scanned at all. Taking the units one by one and then ending the
sequence gives the nodes that resolving the whole sequence gives.
-/

namespace HiddenContent

/-- A sequence in progress: whether it is scanned for blocks, and how far the scan is. -/
structure Progress where
  scan : Bool := true
  state : BlockScan := .scanning

namespace Progress

/-- The start of the sequence that nodes of a kind enclose. -/
def nested (kind : Text) : Progress := { scan := Resolve.scansChildren kind }

/-- Take the next unit. -/
def feed (settings : Settings) (progress : Progress) (node : Node) : Resolution × Progress :=
  if progress.scan then
    let (resolution, state) := BlockScan.feed settings progress.state node
    (Resolve.finished settings resolution, { progress with state })
  else
    (Resolve.content settings node, progress)

/-- Take several units in order. -/
def feedAll (settings : Settings) (progress : Progress) :
    List Node → List Resolution × Progress
  | [] => ([], progress)
  | node :: rest =>
    let (resolution, next) := feed settings progress node
    let (later, last) := feedAll settings next rest
    (resolution :: later, last)

/-- End the sequence. -/
def finish (settings : Settings) (progress : Progress) : List Resolution × Progress :=
  ((BlockScan.finish settings progress.state).map (Resolve.finished settings),
    { progress with state := .scanning })

/-- Take all units that are left and end the sequence. -/
def run (settings : Settings) (progress : Progress) (nodes : List Node) :
    List Node × Progress :=
  let (fed, next) := feedAll settings progress nodes
  let (restored, last) := finish settings next
  (Resolve.spliced (fed ++ restored), last)

/-- Units taken one by one are scanned as a sequence, and each outcome is resolved as it comes. -/
theorem feedAll_scanned (settings : Settings) (state : BlockScan) (nodes : List Node) :
    feedAll settings { state } nodes =
      ((BlockScan.feedAll settings state nodes).1.map (Resolve.finished settings),
        { state := (BlockScan.feedAll settings state nodes).2 }) := by
  induction nodes generalizing state with
  | nil => rfl
  | cons node rest inductionHypothesis =>
    simp only [feedAll, BlockScan.feedAll, feed, if_true, inductionHypothesis, List.map_cons]

/-- Where nothing is scanned, each unit is resolved on its own. -/
theorem feedAll_unscanned (settings : Settings) (nodes : List Node) :
    feedAll settings { scan := false } nodes =
      (nodes.map (Resolve.content settings), { scan := false }) := by
  induction nodes with
  | nil => rfl
  | cons node rest inductionHypothesis =>
    simp only [feedAll, feed, Bool.false_eq_true, if_false, inductionHypothesis, List.map_cons]

/-- A sequence taken unit by unit from its start is the resolved sequence. -/
theorem run_start (settings : Settings) (scan : Bool) (nodes : List Node) :
    (run settings { scan } nodes).1 =
      Resolve.spliced (Resolve.sequence settings scan nodes) := by
  cases scan with
  | true =>
    simp only [run, feedAll_scanned, finish, Resolve.sequence_eq, Resolve.scanned, if_true,
      BlockScan.outcomes, List.map_append]
  | false =>
    rw [Resolve.sequence_eq]
    simp only [run, feedAll_unscanned, finish, Resolve.scanned, Bool.false_eq_true, if_false,
      BlockScan.finish, List.map_map, List.map_nil, List.append_nil]
    rfl

end Progress

end HiddenContent
