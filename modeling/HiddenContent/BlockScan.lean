import HiddenContent.Node
import HiddenContent.Region

/-!
# Blocks among units

A block directive may enclose whole units of a note. The scan walks one sequence of sibling
units as a machine with two states. A unit that ends with an opener of the configured action
starts collecting; a unit that ends with the closer of that block stops it and yields one hidden
block that owns the units between. While units are collected none of them appears in the sequence,
every unit that ends with an opener opens a level, and every unit that ends with a closer closes
one. What stands before an opener or a closer inside its unit stays: before the opener it is
visible, before the closer it belongs to the block.

A block that never closes hides nothing: `restore` gives back its opener and the units after it,
and the scan starts again after the opener.
-/

namespace HiddenContent

/-- How a unit appears in the resolved sequence: as it is, as other nodes, or not at all. -/
inductive Resolution where
  | unchanged (node : Node)
  | replaced (nodes : List Node)
  | removed

namespace Resolution

/-- The nodes that stand in place of the unit. -/
def nodes : Resolution → List Node
  | unchanged node => [node]
  | replaced nodes => nodes
  | removed => []

/-- True when the unit itself stays. -/
def isUnchanged : Resolution → Bool
  | unchanged _ => true
  | replaced _ => false
  | removed => false

end Resolution

/-- A unit that ends with an opener line: what stands before the opener, when there is
    anything, and a unit that holds the opener alone. -/
structure OpenerUnit where
  opener : BlockOpener
  leading : Option Node
  marker : Node

namespace BlockScan

/-- Remove the line breaks at the end. -/
def withoutLastBreaks (nodes : List Node) : List Node :=
  (nodes.reverse.dropWhile Node.isLineBreak).reverse

/-- The opener in the last line of a value, that line, and what stands before it. -/
def openerOfValue? (value : Text) : Option (BlockOpener × Text × Text) :=
  let parts := Text.lastLine value.stripEnd
  (BlockOpener.ofLine? parts.2).map fun opener => (opener, parts.2, parts.1.getD [])

/-- A text before an opener, unless it is blank. -/
def visibleHead (head : Text) : List Node :=
  if head.strip.isEmpty then [] else [Node.ofText head]

/-- The opener at the end of a unit. Only a text, or a paragraph whose last child is a text,
    can end with one. -/
def openerUnit? (unit : Node) : Option OpenerUnit :=
  if unit.isText then
    (openerOfValue? unit.valueText).map fun (opener, line, head) =>
      { opener
        leading := (withoutLastBreaks (visibleHead head)).head?
        marker := Node.ofText line }
  else if unit.kind = Node.paragraphKind then
    (unit.children.getLast?.filter Node.isText).bind fun last =>
      (openerOfValue? last.valueText).map fun (opener, line, head) =>
        let leading := withoutLastBreaks (unit.children.dropLast ++ visibleHead head)
        { opener
          leading := if leading.isEmpty then none else some (Node.paragraph leading)
          marker := Node.paragraph [Node.ofText line] }
  else
    none

/-- What is left of a text that ends with a closer line: nothing, or what stands before it
    unless that is blank. No answer when the text does not end so. -/
def closerOfValue? (value : Text) : Option (Option Node) :=
  let stripped := value.stripEnd
  if isBlockCloser stripped then some none
  else
    match Text.lastLine stripped with
    | (none, _) => none
    | (some head, line) =>
      if isBlockCloser line then some (visibleHead head).head? else none

mutual

/-- Remove the closer at the end of a unit, following the last child of each container. The
    answer is the unit without the closer, or nothing of it; no answer when there is no closer. -/
def closerUnit? : Node → Option (Option Node)
  | .element kind value children data =>
    if kind.text = Node.textKind then closerOfValue? value.text
    else
      (closerOfLast? children).map fun kept =>
        let kept := withoutLastBreaks kept
        if kept.isEmpty then none else some (.element kind value kept data)
  | .hiddenInline _ _ _ => none
  | .hiddenBlock attributes label children =>
    (closerOfLast? children).map fun kept =>
      let kept := withoutLastBreaks kept
      if kept.isEmpty then none else some (.hiddenBlock attributes label kept)

/-- Remove the closer at the end of the last unit. -/
def closerOfLast? : List Node → Option (List Node)
  | [] => none
  | [last] => (closerUnit? last).map Option.toList
  | first :: second :: rest => (closerOfLast? (second :: rest)).map (first :: ·)

end

end BlockScan

/-- The state of a scan: outside any block, or inside with the number of open levels, the
    attributes and the marker of the opener, and the units collected since. -/
inductive BlockScan where
  | scanning
  | collecting (depth : Nat) (blob : Text) (opener : Node) (units : List Node)

namespace BlockScan

/-- True inside a block. -/
def isCollecting : BlockScan → Bool
  | scanning => false
  | collecting _ _ _ _ => true

/-- The attributes of the block in progress, as its opener has them. -/
def blob : BlockScan → Text
  | scanning => []
  | collecting _ blob _ _ => blob

/-- The marker of the block in progress. -/
def marker? : BlockScan → Option Node
  | scanning => none
  | collecting _ _ opener _ => some opener

/-- The units collected since the opener of the block in progress. -/
def units : BlockScan → List Node
  | scanning => []
  | collecting _ _ _ units => units

/-- The hidden block of an opener's attributes around units. -/
def hiddenBlock (settings : Settings) (blob : Text) (units : List Node) : Node :=
  let labelled := settings.labelled .authored blob
  .hiddenBlock labelled.attributes labelled.label units

/-- Take the next unit. -/
def feed (settings : Settings) (state : BlockScan) (unit : Node) : Resolution × BlockScan :=
  match state with
  | scanning =>
    match (openerUnit? unit).filter fun found => settings.acts found.opener.action with
    | none => (.unchanged unit, scanning)
    | some found =>
      (match found.leading with
        | some leading => .replaced [leading]
        | none => .removed,
        collecting 1 found.opener.blob found.marker [])
  | collecting depth blob opener units =>
    if (openerUnit? unit).isSome then
      (.removed, collecting (depth + 1) blob opener (units ++ [unit]))
    else
      match closerUnit? unit with
      | none => (.removed, collecting depth blob opener (units ++ [unit]))
      | some residual =>
        if 1 < depth then (.removed, collecting (depth - 1) blob opener (units ++ [unit]))
        else (.replaced [hiddenBlock settings blob (units ++ residual.toList)], scanning)

/-- Take several units in order. -/
def feedAll (settings : Settings) : BlockScan → List Node → List Resolution × BlockScan
  | state, [] => ([], state)
  | state, unit :: rest =>
    let (resolution, next) := feed settings state unit
    let (later, last) := feedAll settings next rest
    (resolution :: later, last)

/-- What a block that never closes gives back: its opener alone, and the units after it. -/
def restore : BlockScan → Option (Node × List Node)
  | scanning => none
  | collecting _ _ opener units => some (opener, units)

/-- End a sequence without taking anything again: what it gives back, and the state after it. -/
def release (state : BlockScan) : List Node × BlockScan :=
  match state.restore with
  | none => ([], scanning)
  | some (opener, units) => (opener :: units, scanning)

/-- The number of units that a block in progress holds, its opener included. -/
def pending : BlockScan → Nat
  | scanning => 0
  | collecting _ _ _ units => units.length + 1

/-- One unit adds at most one held unit. -/
theorem pending_feed (settings : Settings) (state : BlockScan) (unit : Node) :
    (feed settings state unit).2.pending ≤ state.pending + 1 := by
  unfold feed
  split
  · split <;> simp [pending]
  · split
    · simp [pending]
    · split
      · simp [pending]
      · split <;> simp [pending]

/-- A sequence adds at most as many held units as it has. -/
theorem pending_feedAll (settings : Settings) (state : BlockScan) (units : List Node) :
    (feedAll settings state units).2.pending ≤ state.pending + units.length := by
  induction units generalizing state with
  | nil => simp [feedAll]
  | cons unit rest inductionHypothesis =>
    have first := pending_feed settings state unit
    have later := inductionHypothesis (feed settings state unit).2
    simp only [feedAll, List.length_cons]
    omega

/-- End a sequence. The opener of a block that never closed appears in place of that block, and
    the units after it are taken again. -/
def finish (settings : Settings) (state : BlockScan) : List Resolution :=
  match state with
  | scanning => []
  | collecting _ _ opener units =>
    let again := feedAll settings scanning units
    .replaced [opener] :: (again.1 ++ finish settings again.2)
termination_by state.pending
decreasing_by
  have fewer := pending_feedAll settings scanning units
  simp only [pending] at fewer ⊢
  omega

/-- How each unit of a sequence appears once its blocks are found, the units of a block that
    never closed taken again. -/
def outcomes (settings : Settings) (units : List Node) : List Resolution :=
  let fed := feedAll settings scanning units
  fed.1 ++ finish settings fed.2

end BlockScan

end HiddenContent
