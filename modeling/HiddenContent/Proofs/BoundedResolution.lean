import HiddenContent.Resolve

/-!
# Resolving ends

To resolve a sequence, each unit that its scan leaves in place and each node that its scan makes is
resolved on its own: what stands before an opener, an opener that is given back, a closed block.
These lead to further sequences: the children of a container, the units that a block owns, the
hidden lines of a block in one text. A `Task` is a sequence or one such node, and `Asks` lists what
resolving it can ask for.

The size of a task is twice the weight of what is resolved, and one more for a sequence. An opener
that is given back may weigh as much as the sequence it comes from, so the weight alone would not
do. Whatever a task asks for is of smaller size.

`layer` resolves a task, unit by unit, from answers to what it asks. Its loop takes the units
behind an open block again, pass by pass, and gives up when it has made as many passes as it may.
`within` nests layers and gives up below a bound. So both can fail to end, in their own way, and
neither does: a bound that is larger than the size of a task is enough, whatever the note is.
-/

namespace HiddenContent

namespace Resolve

/-! ## What resolving asks for -/

/-- What is resolved on its own: a sequence, scanned for blocks or not, or a single node, which the
    scan of its sequence made or left in place. -/
inductive Task where
  | sequence (scan : Bool) (nodes : List Node)
  | single (made : Bool) (node : Node)

namespace Task

/-- Twice the weight, and one more for a sequence. -/
def size : Task → Nat
  | sequence _ nodes => 2 * Node.weights nodes + 1
  | single _ node => 2 * node.weight

/-- What a task resolves to. -/
def resolved (settings : Settings) : Task → List Resolution
  | sequence scan nodes => Resolve.sequence settings scan nodes
  | single false node => [content settings node]
  | single true node => [.replaced (emitted settings node)]

/-- The nodes that are resolved on their own for one outcome of a scan. -/
def ofOutcome : Resolution → List Task
  | .unchanged node => [single false node]
  | .replaced nodes => nodes.map (single true)
  | .removed => []

end Task

/-- What resolving a task can ask to be resolved. -/
inductive Asks (settings : Settings) : (task asked : Task) → Prop where
  | unit {scan : Bool} {nodes : List Node} {node : Node} (member : node ∈ nodes) :
      Asks settings (.sequence scan nodes) (.single false node)
  | leading {nodes : List Node} {opening node : Node} {found : OpenerUnit}
      (member : opening ∈ nodes) (opens : BlockScan.openerUnit? opening = some found)
      (leads : found.leading = some node) :
      Asks settings (.sequence true nodes) (.single true node)
  | marker {nodes : List Node} {opening : Node} {found : OpenerUnit}
      (member : opening ∈ nodes) (opens : BlockScan.openerUnit? opening = some found) :
      Asks settings (.sequence true nodes) (.single true found.marker)
  | block {before body after : List Node} {opening closing : Node} {found : OpenerUnit}
      {residual : Option Node} (opens : BlockScan.openerUnit? opening = some found)
      (closes : BlockScan.closerUnit? closing = some residual) :
      Asks settings (.sequence true (before ++ opening :: (body ++ closing :: after)))
        (.single true
          (BlockScan.hiddenBlock settings found.opener.blob (body ++ residual.toList)))
  | owned {node : Node} (hidden : node.isHidden = true) :
      Asks settings (.single true node) (.sequence true node.children)
  | children {made : Bool} {node : Node} (shown : node.isHidden = false)
      (container : node.isText = false) :
      Asks settings (.single made node) (.sequence (scansChildren node.kind) node.children)
  | interior {made : Bool} {node : Node} {opener : BlockOpener} {interior : Text}
      (literal : node.isText = true)
      (member : TextPart.block opener interior ∈
        TextPart.ofText settings.directiveAction node.valueText) :
      Asks settings (.single made node) (.sequence true [Node.ofText interior])

/-- Whatever a task asks for is of smaller size. -/
theorem Asks.size_lt {settings : Settings} {task asked : Task}
    (asks : Asks settings task asked) : asked.size < task.size := by
  cases asks with
  | unit member =>
    have bounded := Node.weight_le_weights member
    simp only [Task.size]
    omega
  | leading member opens leads =>
    have bounded := Node.weight_le_weights member
    have lighter := (BlockScan.weight_openerUnit opens).2 _ leads
    simp only [Task.size]
    omega
  | marker member opens =>
    have bounded := Node.weight_le_weights member
    have lighter := (BlockScan.weight_openerUnit opens).1
    simp only [Task.size]
    omega
  | @block _ _ _ opening _ _ _ opens closes =>
    have kept := BlockScan.weights_closerUnit closes
    have positive := Node.one_le_weight opening
    simp only [Task.size, BlockScan.weight_hiddenBlock, Node.weights_append, Node.weights_cons]
    omega
  | @owned node hidden =>
    have lighter := weights_children_lt node
    simp only [Task.size]
    omega
  | @children _ node shown container =>
    have lighter := weights_children_lt node
    simp only [Task.size]
    omega
  | interior literal member =>
    have lighter := weights_interior_lt member
    simp only [Task.size]
    omega

/-! ## What the outcomes of a scan ask for -/

/-- The block in progress is that of an opener among the nodes taken so far, and holds the nodes
    behind it. -/
inductive CollectedFrom : (taken : List Node) → BlockScan → Prop where
  | scanning {taken : List Node} : CollectedFrom taken .scanning
  | collecting {before units : List Node} {opening : Node} {found : OpenerUnit} {depth : Nat}
      (opens : BlockScan.openerUnit? opening = some found) :
      CollectedFrom (before ++ opening :: units)
        (.collecting depth found.opener.blob found.marker units)

/-- One more unit is collected. -/
theorem CollectedFrom.collected {taken units : List Node} {depth next : Nat} {blob : Text}
    {opener : Node} (collected : CollectedFrom taken (.collecting depth blob opener units))
    (unit : Node) :
    CollectedFrom (taken ++ [unit]) (.collecting next blob opener (units ++ [unit])) := by
  cases collected with
  | collecting opens =>
    rw [List.append_assoc, List.cons_append]
    exact .collecting opens

variable {settings : Settings}

/-- What one step yields is asked for by the nodes taken before it, the unit, and any after it. -/
theorem asks_step {state next : BlockScan} {unit : Node} {outcome : Resolution}
    (step : BlockScan.Step settings state unit outcome next) {taken : List Node}
    (collected : CollectedFrom taken state) (after : List Node) :
    (∀ task ∈ Task.ofOutcome outcome,
      Asks settings (.sequence true (taken ++ unit :: after)) task) ∧
      CollectedFrom (taken ++ [unit]) next := by
  cases step with
  | outside plain =>
    refine ⟨?_, .scanning⟩
    simp only [Task.ofOutcome, List.mem_singleton, forall_eq]
    exact .unit (by simp)
  | @opening unit found opens acts =>
    refine ⟨?_, .collecting opens⟩
    cases leads : found.leading with
    | none => simp [BlockScan.openerOutcome, leads, Task.ofOutcome]
    | some leading =>
      simp only [BlockScan.openerOutcome, leads, Task.ofOutcome, List.map_cons, List.map_nil,
        List.mem_singleton, forall_eq]
      exact .leading (by simp) opens leads
  | deeper opens => exact ⟨by simp [Task.ofOutcome], collected.collected unit⟩
  | within unopened unclosed => exact ⟨by simp [Task.ofOutcome], collected.collected unit⟩
  | shallower unopened closes nested =>
    exact ⟨by simp [Task.ofOutcome], collected.collected unit⟩
  | closing unopened closes last =>
    refine ⟨?_, .scanning⟩
    cases collected with
    | collecting opens =>
      simp only [Task.ofOutcome, List.map_cons, List.map_nil, List.mem_singleton, forall_eq,
        List.append_assoc, List.cons_append]
      exact .block opens closes

/-- While a sequence is scanned, it asks for nothing but the units of its outcomes, and the scan
    holds nothing but units that were taken. -/
theorem asks_feedAll (settings : Settings) {state : BlockScan} {taken : List Node}
    (collected : CollectedFrom taken state) (units : List Node) :
    (∀ outcome ∈ (BlockScan.feedAll settings state units).1, ∀ task ∈ Task.ofOutcome outcome,
      Asks settings (.sequence true (taken ++ units)) task) ∧
      CollectedFrom (taken ++ units) (BlockScan.feedAll settings state units).2 := by
  induction units generalizing state taken with
  | nil => simpa [BlockScan.feedAll] using collected
  | cons unit rest inductionHypothesis =>
    obtain ⟨here, next⟩ := asks_step (BlockScan.step_feed settings state unit) collected rest
    obtain ⟨later, last⟩ := inductionHypothesis next
    rw [List.append_assoc, List.singleton_append] at later last
    refine ⟨?_, last⟩
    intro outcome member
    rcases List.mem_cons.mp member with rfl | inRest
    · exact here
    · exact later outcome inRest

/-- The end of a sequence asks for nothing but what its nodes ask for: each pass takes nodes of the
    sequence again that stand one after the other. -/
theorem asks_finish {state : BlockScan} {nodes : List Node}
    (collected : CollectedFrom nodes state) :
    ∀ outcome ∈ BlockScan.finish settings state, ∀ task ∈ Task.ofOutcome outcome,
      Asks settings (.sequence true nodes) task := by
  fun_induction BlockScan.finish settings state with
  | case1 => simp
  | case2 depth blob opener units again inductionHypothesis =>
    cases collected with
    | @collecting before _ opening found _ opens =>
      obtain ⟨fed, last⟩ := asks_feedAll settings
        (.scanning : CollectedFrom (before ++ [opening]) .scanning) units
      rw [List.append_assoc, List.singleton_append] at fed last
      intro outcome member
      rcases List.mem_cons.mp member with rfl | later
      · simp only [Task.ofOutcome, List.map_cons, List.map_nil, List.mem_singleton, forall_eq]
        exact .marker (by simp) opens
      · rcases List.mem_append.mp later with inFed | inFinish
        · exact fed outcome inFed
        · exact inductionHypothesis last outcome inFinish

/-! ## One layer of resolving -/

section Layer

variable (settings : Settings) (answers : Task → Option (List Resolution))

/-- The nodes of one part of a text. -/
def partFrom : TextPart → Option (List Node)
  | .visible shown => some (splitInline settings shown)
  | .block opener interior =>
    (if interior.isEmpty then some [] else answers (.sequence true [Node.ofText interior])).map
      fun resolved => [BlockScan.hiddenBlock settings opener.blob (spliced resolved)]

/-- Resolve the value of a text, part by part. -/
def textFrom (node : Node) : Option Resolution :=
  ((TextPart.ofText settings.directiveAction node.valueText).mapM
    (partFrom settings answers)).map fun parts =>
      if parts.flatten.all Node.isText then .unchanged node else .replaced parts.flatten

/-- Resolve what a node encloses. -/
def containerFrom (node : Node) : Option Resolution :=
  if node.children.isEmpty then some (.unchanged node)
  else
    (answers (.sequence (scansChildren node.kind) node.children)).map fun resolved =>
      if resolved.all Resolution.isUnchanged then .unchanged node
      else .replaced [node.withChildren (spliced resolved)]

/-- Resolve a node that is text or a container. -/
def shownFrom (node : Node) : Option Resolution :=
  if node.isText then textFrom settings answers node else containerFrom answers node

/-- Resolve a node that the scan left in place, or one that it made. -/
def singleFrom : (made : Bool) → Node → Option Resolution
  | false, node => if node.isHidden then some (.unchanged node) else shownFrom settings answers node
  | true, node =>
    (if node.isHidden then
      (answers (.sequence true node.children)).map fun resolved =>
        [node.withChildren (spliced resolved)]
    else (shownFrom settings answers node).map Resolution.nodes).map .replaced

/-- Resolve what the scan yields for one unit. -/
def outcomeFrom : Resolution → Option (List Resolution)
  | .unchanged node => answers (.single false node)
  | .replaced nodes =>
    (nodes.mapM fun node => answers (.single true node)).map fun resolved =>
      [.replaced (spliced resolved.flatten)]
  | .removed => some [.removed]

/-- Take units one by one and resolve at once what the scan yields for each. -/
def feedFrom : BlockScan → List Node → Option (List Resolution × BlockScan)
  | state, [] => some ([], state)
  | state, unit :: rest => do
    let (outcome, next) := BlockScan.feed settings state unit
    let resolved ← outcomeFrom answers outcome
    let (later, last) ← feedFrom next rest
    some (resolved ++ later, last)

/-- End a sequence pass by pass: resolve the opener that was given back, take the units after it
    again, and go on with what they give back. Without a pass left there is no result. -/
def passesFrom : (passes : Nat) → (restored : List Node) → Option (List Resolution)
  | _, [] => some []
  | 0, _ :: _ => none
  | passes + 1, marker :: units => do
    let first ← outcomeFrom answers (.replaced [marker])
    let (again, state) ← feedFrom settings answers .scanning units
    let later ← passesFrom passes state.release.1
    some (first ++ (again ++ later))

/-- Resolve a task from answers to what it asks for. -/
def layer (passes : Nat) : Task → Option (List Resolution)
  | .sequence true nodes => do
    let (fed, state) ← feedFrom settings answers .scanning nodes
    let restored ← passesFrom settings answers passes state.release.1
    some (fed ++ restored)
  | .sequence false nodes =>
    (nodes.mapM fun node => answers (.single false node)).map List.flatten
  | .single made node => (singleFrom settings answers made node).map ([·])

end Layer

/-- Resolve a task with layers nested up to a bound, which also bounds the passes of each layer.
    Below the bound there is no result. -/
def within (settings : Settings) : (bound : Nat) → Task → Option (List Resolution)
  | 0, _ => none
  | bound + 1, task => layer settings (within settings bound) bound task

/-! ## A layer with the right answers -/

/-- Where each element has an answer, so has the list. -/
theorem mapM_eq_some_map {α β : Type} {answer : α → Option β} {image : α → β} {items : List α}
    (known : ∀ item ∈ items, answer item = some (image item)) :
    items.mapM answer = some (items.map image) := by
  induction items with
  | nil => rfl
  | cons item rest inductionHypothesis =>
    obtain ⟨here, later⟩ := List.forall_mem_cons.mp known
    simp [List.mapM_cons, here, inductionHypothesis later]

variable {answers : Task → Option (List Resolution)}

/-- Right answers for the interiors of a text's blocks make the right nodes of each part. -/
theorem partFrom_eq {parts : List TextPart}
    (known : ∀ opener interior, TextPart.block opener interior ∈ parts →
      answers (.sequence true [Node.ofText interior]) =
        some (sequence settings true [Node.ofText interior])) :
    ∀ part ∈ parts, partFrom settings answers part = some (partNodes settings part) := by
  intro part member
  cases part with
  | visible shown => rfl
  | block opener interior =>
    cases empty : interior.isEmpty with
    | true => simp [partFrom, partNodes, empty, spliced]
    | false => simp [partFrom, partNodes, empty, known opener interior member]

/-- Right answers make the right resolution of a text. -/
theorem textFrom_eq {made : Bool} {node : Node} (literal : node.isText = true)
    (known : ∀ asked, Asks settings (.single made node) asked →
      answers asked = some (asked.resolved settings)) :
    textFrom settings answers node = some (text settings node) := by
  have parts : ∀ part ∈ TextPart.ofText settings.directiveAction node.valueText,
      partFrom settings answers part = some (partNodes settings part) :=
    partFrom_eq fun opener interior member => known _ (.interior literal member)
  rw [textFrom, mapM_eq_some_map parts, Option.map_some, text_eq, List.flatMap_def]

/-- Right answers make the right resolution of a container. -/
theorem containerFrom_eq {made : Bool} {node : Node} (shown : node.isHidden = false)
    (container : node.isText = false)
    (known : ∀ asked, Asks settings (.single made node) asked →
      answers asked = some (asked.resolved settings)) :
    containerFrom answers node = some (Resolve.container settings node) := by
  rw [containerFrom, Resolve.container]
  split
  · rfl
  · rw [known _ (.children shown container)]
    rfl

/-- Right answers make the right resolution of a node that is shown. -/
theorem shownFrom_eq {made : Bool} {node : Node} (shown : node.isHidden = false)
    (known : ∀ asked, Asks settings (.single made node) asked →
      answers asked = some (asked.resolved settings)) :
    shownFrom settings answers node = some (content settings node) := by
  have visible : ¬node.isHidden = true := by simp [shown]
  rw [shownFrom, content, if_neg visible]
  split
  · exact textFrom_eq ‹_› known
  · exact containerFrom_eq shown (by simpa using ‹¬node.isText = true›) known

/-- Right answers make the right resolution of one node. -/
theorem singleFrom_eq {made : Bool} {node : Node}
    (known : ∀ asked, Asks settings (.single made node) asked →
      answers asked = some (asked.resolved settings)) :
    (singleFrom settings answers made node).map ([·]) =
      some ((Task.single made node).resolved settings) := by
  cases hidden : node.isHidden with
  | true =>
    cases made with
    | false => simp [singleFrom, hidden, Task.resolved, content]
    | true =>
      have owned : emitted settings node =
          [node.withChildren (spliced (sequence settings true node.children))] := by
        rw [emitted, if_pos hidden]
      rw [singleFrom, if_pos hidden, known _ (.owned hidden)]
      simp only [Task.resolved, owned, Option.map_some]
  | false =>
    have answered := shownFrom_eq hidden known
    cases made with
    | false => simp [singleFrom, hidden, answered, Task.resolved]
    | true =>
      simp [singleFrom, hidden, answered, Task.resolved, emitted_eq_content settings hidden]

/-- Nodes that a scan made are resolved one after the other. -/
theorem spliced_flatten_made (settings : Settings) (nodes : List Node) :
    spliced (nodes.map fun node => (Task.single true node).resolved settings).flatten =
      nodes.flatMap (emitted settings) := by
  induction nodes with
  | nil => rfl
  | cons node rest inductionHypothesis =>
    simp only [spliced, List.map_cons, List.flatten_cons, List.flatMap_append,
      List.flatMap_cons] at inductionHypothesis ⊢
    rw [inductionHypothesis]
    simp [Task.resolved, Resolution.nodes]

/-- Right answers make the right resolution of one outcome of a scan. -/
theorem outcomeFrom_eq {outcome : Resolution}
    (known : ∀ task ∈ Task.ofOutcome outcome, answers task = some (task.resolved settings)) :
    outcomeFrom answers outcome = some [finished settings outcome] := by
  cases outcome with
  | unchanged node => exact known _ (by simp [Task.ofOutcome])
  | replaced nodes =>
    have each : ∀ node ∈ nodes, answers (.single true node) =
        some ((Task.single true node).resolved settings) := by
      intro node member
      exact known _ (List.mem_map_of_mem member)
    rw [outcomeFrom, mapM_eq_some_map each, Option.map_some, spliced_flatten_made]
    rfl
  | removed => rfl

/-- Right answers make the right resolutions of a scanned sequence, whose scan is the same. -/
theorem feedFrom_eq {state : BlockScan} {units : List Node}
    (known : ∀ outcome ∈ (BlockScan.feedAll settings state units).1,
      ∀ task ∈ Task.ofOutcome outcome, answers task = some (task.resolved settings)) :
    feedFrom settings answers state units =
      some ((BlockScan.feedAll settings state units).1.map (finished settings),
        (BlockScan.feedAll settings state units).2) := by
  induction units generalizing state with
  | nil => rfl
  | cons unit rest inductionHypothesis =>
    simp only [BlockScan.feedAll] at known
    obtain ⟨here, later⟩ := List.forall_mem_cons.mp known
    simp only [feedFrom, outcomeFrom_eq here, inductionHypothesis later, BlockScan.feedAll,
      Option.bind_eq_bind, Option.bind_some, List.map_cons, List.singleton_append]

/-- A release gives back as many units as are held. -/
theorem length_release (state : BlockScan) : state.release.1.length = state.pending := by
  cases state <;> rfl

/-- A pass leaves fewer units to take again than it was given. -/
theorem length_release_feedAll_lt (settings : Settings) (marker : Node) (units : List Node) :
    (BlockScan.feedAll settings .scanning units).2.release.1.length <
      (marker :: units).length := by
  have fewer : (BlockScan.feedAll settings .scanning units).2.pending ≤ 0 + units.length :=
    BlockScan.pending_feedAll settings .scanning units
  rw [length_release, List.length_cons]
  omega

/-- The loop needs no more passes than it has units to take again. -/
theorem passesFrom_eq {passes : Nat} {state : BlockScan}
    (enough : state.release.1.length ≤ passes)
    (known : ∀ outcome ∈ BlockScan.finish settings state, ∀ task ∈ Task.ofOutcome outcome,
      answers task = some (task.resolved settings)) :
    passesFrom settings answers passes state.release.1 =
      some ((BlockScan.finish settings state).map (finished settings)) := by
  induction passes generalizing state with
  | zero =>
    cases state with
    | scanning => rw [BlockScan.finish]; rfl
    | collecting depth blob opener units => simp [BlockScan.release, BlockScan.restore] at enough
  | succ passes inductionHypothesis =>
    cases state with
    | scanning => rw [BlockScan.finish]; rfl
    | collecting depth blob opener units =>
      have shorter := length_release_feedAll_lt settings opener units
      have given : (BlockScan.collecting depth blob opener units).release.1 = opener :: units := rfl
      rw [given] at enough ⊢
      rw [BlockScan.finish] at known ⊢
      obtain ⟨first, others⟩ := List.forall_mem_cons.mp known
      obtain ⟨fed, later⟩ := List.forall_mem_append.mp others
      rw [passesFrom, outcomeFrom_eq first, feedFrom_eq fed]
      simp only [Option.bind_eq_bind, Option.bind_some]
      rw [inductionHypothesis (by omega) later]
      simp only [Option.bind_some, List.map_cons, List.map_append, List.singleton_append]

/-- A sequence has no more nodes than it weighs. -/
theorem length_le_weights (nodes : List Node) : nodes.length ≤ Node.weights nodes := by
  induction nodes with
  | nil => simp
  | cons node rest inductionHypothesis =>
    have positive := Node.one_le_weight node
    simp only [List.length_cons, Node.weights_cons]
    omega

/-- From the right answers to what a task asks for, and to nothing else, a layer resolves it. -/
theorem layer_eq {task : Task} {passes : Nat} (enough : task.size ≤ passes)
    (known : ∀ asked, Asks settings task asked → answers asked = some (asked.resolved settings)) :
    layer settings answers passes task = some (task.resolved settings) := by
  cases task with
  | single made node => exact singleFrom_eq known
  | sequence scan nodes =>
    cases scan with
    | false =>
      have each : ∀ node ∈ nodes, answers (.single false node) = some [content settings node] :=
        fun node member => known _ (.unit member)
      rw [layer, mapM_eq_some_map each, Option.map_some, Task.resolved, sequence_eq, scanned,
        if_neg Bool.false_ne_true, List.map_map, ← List.flatMap_def, ← List.map_eq_flatMap]
      rfl
    | true =>
      obtain ⟨fed, last⟩ := asks_feedAll settings
        (.scanning : CollectedFrom [] .scanning) nodes
      rw [List.nil_append] at fed last
      have shorter := length_release_feedAll_lt settings .lineBreak nodes
      have light := length_le_weights nodes
      rw [List.length_cons] at shorter
      rw [Task.size] at enough
      rw [layer, feedFrom_eq
        fun outcome member task asked => known task (fed outcome member task asked)]
      simp only [Option.bind_eq_bind, Option.bind_some]
      rw [passesFrom_eq (by omega)
        fun outcome member task asked => known task (asks_finish last outcome member task asked)]
      rw [Task.resolved, sequence_eq, scanned, if_pos rfl, BlockScan.outcomes, List.map_append]
      rfl

/-- A bound above the size of a task is enough to resolve it.

The induction is on the bound: what a task asks for is smaller, so one less is enough for it. -/
theorem within_eq (settings : Settings) {bound : Nat} {task : Task} (enough : task.size < bound) :
    within settings bound task = some (task.resolved settings) := by
  induction bound generalizing task with
  | zero => omega
  | succ bound inductionHypothesis =>
    rw [within]
    refine layer_eq (by omega) ?_
    intro asked asks
    have smaller := asks.size_lt
    exact inductionHypothesis (by omega)

/-- Resolving ends for every note. Each pass of the loop at the end of a sequence leaves fewer units
    to take again than it was given; whatever is resolved on its own is smaller than what it is
    resolved for, and nothing else is resolved; and with any bound above its size a sequence is
    resolved within that bound.

    Proof: whatever is asked weighs less than what it is asked for, so a layer gets the right
    answers from the layers below it, and an induction on the bound gives them all. -/
theorem resolving_ends (settings : Settings) :
    (∀ (marker : Node) (units : List Node),
      (BlockScan.feedAll settings .scanning units).2.release.1.length <
        (marker :: units).length) ∧
      (∀ task asked, Asks settings task asked → asked.size < task.size) ∧
      (∀ task passes answers, task.size ≤ passes →
        (∀ asked, Asks settings task asked → answers asked = some (asked.resolved settings)) →
        layer settings answers passes task = some (task.resolved settings)) ∧
      ∀ scan nodes bound, (Task.sequence scan nodes).size < bound →
        within settings bound (.sequence scan nodes) = some (sequence settings scan nodes) := by
  refine ⟨length_release_feedAll_lt settings, fun _ _ asks => asks.size_lt, ?_, ?_⟩
  · intro task passes answers enough known
    exact layer_eq enough known
  · intro scan nodes bound enough
    exact within_eq settings enough

/-- A block that never closes, with another one behind its opener that never closes either. -/
def openNote : List Node :=
  [Node.paragraph [Node.ofText "a\n:::hide".toList], Node.ofText ":::hide".toList,
    Node.paragraph [Node.ofText "b".toList]]

/-- Both openers are given back, one pass after the other. -/
theorem resolving_ends_open :
    (Task.sequence true openNote).size = 45 ∧
      within {} 46 (.sequence true openNote) = some (sequence {} true openNote) :=
  ⟨by decide, (resolving_ends {}).2.2.2 true openNote 46 (by decide)⟩

end Resolve

end HiddenContent
