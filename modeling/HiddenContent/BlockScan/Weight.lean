import HiddenContent.BlockScan.Step

/-!
# The scan adds no weight

Every node that a scan yields weighs no more than the units it was given. The opener of a block
weighs at least one, so what a block owns weighs less than the units it was made from. Resolving
a note goes on inside what the scan yields, and ends for this reason.
-/

namespace HiddenContent

namespace Text

/-- Blanks at the end count, so a text without them is no longer. -/
theorem length_stripEnd (text : Text) : text.stripEnd.length ≤ text.length := by
  unfold stripEnd
  rw [List.length_reverse]
  exact Nat.le_trans (List.dropWhile_sublist _).length_le (by simp)

/-- Neither part of a text at its last line feed is longer than the text. -/
theorem length_lastLine (text : Text) :
    (text.lastLine.1.getD []).length ≤ text.length ∧ text.lastLine.2.length ≤ text.length := by
  have taken := (List.takeWhile_sublist (· != '\n') (l := text.reverse)).length_le
  have dropped := (List.dropWhile_sublist (· != '\n') (l := text.reverse)).length_le
  rw [List.length_reverse] at taken dropped
  unfold lastLine
  simp only
  split
  · simpa using taken
  · rename_i before same
    rw [same] at dropped
    simp only [List.length_cons] at dropped
    constructor
    · simp only [Option.getD_some, List.length_reverse]
      omega
    · simpa using taken

end Text

namespace Node

/-- Every node weighs something. -/
theorem one_le_weight (node : Node) : 1 ≤ node.weight := by
  cases node <;> simp only [weight] <;> omega

/-- A text node weighs one more than its characters. -/
@[simp] theorem weight_ofText (value : Text) : (ofText value).weight = 1 + value.length := by
  simp [ofText, weight, weights]

/-- No nodes weigh nothing. -/
@[simp] theorem weights_nil : weights [] = 0 := rfl

/-- The weight of a sequence adds up node by node. -/
@[simp] theorem weights_cons (node : Node) (rest : List Node) :
    weights (node :: rest) = node.weight + weights rest := rfl

/-- The weight of a sequence adds up part by part. -/
@[simp] theorem weights_append (left right : List Node) :
    weights (left ++ right) = weights left + weights right := by
  induction left with
  | nil => simp
  | cons node rest inductionHypothesis => simp [inductionHypothesis, Nat.add_assoc]

/-- The order of nodes does not count for their weight. -/
@[simp] theorem weights_reverse (nodes : List Node) : weights nodes.reverse = weights nodes := by
  induction nodes with
  | nil => rfl
  | cons node rest inductionHypothesis => simp [inductionHypothesis, Nat.add_comm]

/-- Nodes dropped at the front make a sequence no heavier. -/
theorem weights_dropWhile (drops : Node → Bool) (nodes : List Node) :
    weights (nodes.dropWhile drops) ≤ weights nodes := by
  induction nodes with
  | nil => simp
  | cons node rest inductionHypothesis =>
    rw [List.dropWhile_cons]
    split
    · simp only [weights_cons]
      omega
    · exact Nat.le_refl _

/-- A node is no heavier than a sequence that holds it. -/
theorem weight_le_weights {node : Node} {nodes : List Node} (member : node ∈ nodes) :
    node.weight ≤ weights nodes := by
  induction nodes with
  | nil => simp at member
  | cons first rest inductionHypothesis =>
    simp only [weights_cons]
    rcases List.mem_cons.mp member with same | inside
    · subst same
      omega
    · have bounded := inductionHypothesis inside
      omega

/-- A value and the children weigh together less than the node. -/
theorem weight_eq (node : Node) :
    node.weight = 1 + node.valueText.length + weights node.children := by
  cases node <;> simp [weight, valueText, value?, children]

end Node

namespace BlockScan

/-- Line breaks dropped at the end make a sequence no heavier. -/
theorem weights_withoutLastBreaks (nodes : List Node) :
    Node.weights (withoutLastBreaks nodes) ≤ Node.weights nodes := by
  unfold withoutLastBreaks
  rw [Node.weights_reverse]
  exact Nat.le_trans (Node.weights_dropWhile _ _) (by simp)

/-- What stands before an opener line weighs at most one more than its characters. -/
theorem weights_visibleHead (head : Text) :
    Node.weights (visibleHead head) ≤ 1 + head.length := by
  unfold visibleHead
  split <;> simp

/-- The opener line and the text before it are no longer than the value. -/
theorem length_openerOfValue {value line head : Text} {opener : BlockOpener}
    (found : openerOfValue? value = some (opener, line, head)) :
    line.length ≤ value.length ∧ head.length ≤ value.length := by
  obtain ⟨read, _, same⟩ := Option.map_eq_some_iff.mp found
  simp only [Prod.mk.injEq] at same
  obtain ⟨-, rfl, rfl⟩ := same
  have shorter := Text.length_stripEnd value
  have parts := Text.length_lastLine value.stripEnd
  omega

/-- The parts of an opener unit weigh no more than the unit. -/
theorem weight_openerUnit {unit : Node} {found : OpenerUnit}
    (opened : openerUnit? unit = some found) :
    found.marker.weight ≤ unit.weight ∧
      ∀ leading ∈ found.leading, leading.weight ≤ unit.weight := by
  unfold openerUnit? at opened
  split at opened
  · obtain ⟨⟨opener, line, head⟩, read, rfl⟩ := Option.map_eq_some_iff.mp opened
    have lengths := length_openerOfValue read
    have whole := Node.weight_eq unit
    constructor
    · simp only [Node.weight_ofText]
      omega
    · intro leading present
      have member := List.mem_of_mem_head? present
      have bounded := Node.weight_le_weights member
      have trimmed := weights_withoutLastBreaks (visibleHead head)
      have headWeight := weights_visibleHead head
      omega
  · split at opened
    · obtain ⟨last, isLast, mapped⟩ := Option.bind_eq_some_iff.mp opened
      obtain ⟨⟨opener, line, head⟩, read, rfl⟩ := Option.map_eq_some_iff.mp mapped
      have lengths := length_openerOfValue read
      have whole := Node.weight_eq unit
      have lastWhole := Node.weight_eq last
      obtain ⟨ends, _⟩ := Option.filter_eq_some_iff.mp isLast
      have parts : unit.children.dropLast ++ [last] = unit.children := by
        obtain ⟨before, split⟩ := List.getLast?_eq_some_iff.mp ends
        simp [split]
      have counted := congrArg Node.weights parts
      simp only [Node.weights_append, Node.weights_cons, Node.weights_nil] at counted
      constructor
      · simp only [Node.paragraph, Node.weight, Json.text_null, List.length_nil,
          Node.weights_cons, Node.weight_ofText, Node.weights_nil]
        omega
      · intro leading present
        simp only at present
        split at present
        · simp at present
        · simp only [Option.mem_def, Option.some.injEq] at present
          subst present
          have trimmed := weights_withoutLastBreaks (unit.children.dropLast ++ visibleHead head)
          have headWeight := weights_visibleHead head
          simp only [Node.weights_append] at trimmed
          simp only [Node.paragraph, Node.weight, Json.text_null, List.length_nil]
          omega
    · simp at opened

/-- What a closer leaves of a text weighs at most one more than the characters of the text. -/
theorem weights_closerOfValue {value : Text} {residual : Option Node}
    (found : closerOfValue? value = some residual) :
    Node.weights residual.toList ≤ 1 + value.length := by
  have shorter := Text.length_stripEnd value
  have parts := Text.length_lastLine value.stripEnd
  unfold closerOfValue? at found
  simp only at found
  split at found
  · simp only [Option.some.injEq] at found
    subst found
    simp
  · split at found
    · simp at found
    · rename_i head line same
      rw [same] at parts
      split at found
      · simp only [Option.some.injEq] at found
        subst found
        have headWeight := weights_visibleHead head
        simp only [Option.getD_some] at parts
        cases visible : visibleHead head with
        | nil => simp
        | cons first rest =>
          simp only [visible, Node.weights_cons] at headWeight
          simp only [List.head?_cons, Option.toList_some, Node.weights_cons, Node.weights_nil]
          omega
      · simp at found

mutual

/-- What is left of a unit without its closer weighs no more than the unit. -/
theorem weights_closerUnit : ∀ {unit : Node} {residual : Option Node},
    closerUnit? unit = some residual → Node.weights residual.toList ≤ unit.weight
  | .element kind value children data, residual, found => by
    unfold closerUnit? at found
    simp only [Node.weight]
    split at found
    · have bounded := weights_closerOfValue found
      omega
    · obtain ⟨kept, inside, rfl⟩ := Option.map_eq_some_iff.mp found
      have bounded := weights_closerOfLast inside
      have trimmed := weights_withoutLastBreaks kept
      simp only
      split
      · simp
      · simp only [Option.toList_some, Node.weights_cons, Node.weight, Node.weights_nil]
        omega
  | .hiddenInline _ _ _, _, found => by simp [closerUnit?] at found
  | .hiddenBlock attributes label children, residual, found => by
    unfold closerUnit? at found
    simp only [Node.weight]
    obtain ⟨kept, inside, rfl⟩ := Option.map_eq_some_iff.mp found
    have bounded := weights_closerOfLast inside
    have trimmed := weights_withoutLastBreaks kept
    simp only
    split
    · simp
    · simp only [Option.toList_some, Node.weights_cons, Node.weight, Node.weights_nil]
      omega

/-- What is left of a sequence without its closer weighs no more than the sequence. -/
theorem weights_closerOfLast : ∀ {units kept : List Node},
    closerOfLast? units = some kept → Node.weights kept ≤ Node.weights units
  | [], _, found => by simp [closerOfLast?] at found
  | [last], kept, found => by
    unfold closerOfLast? at found
    obtain ⟨residual, inside, rfl⟩ := Option.map_eq_some_iff.mp found
    have bounded := weights_closerUnit inside
    simp only [Node.weights_cons, Node.weights_nil]
    omega
  | first :: second :: rest, kept, found => by
    unfold closerOfLast? at found
    obtain ⟨later, inside, rfl⟩ := Option.map_eq_some_iff.mp found
    have bounded := weights_closerOfLast inside
    simp only [Node.weights_cons] at bounded ⊢
    omega

end

/-- The weight of a block in progress: its opener and the collected units. -/
def weight : BlockScan → Nat
  | scanning => 0
  | collecting _ _ opener units => opener.weight + Node.weights units

/-- Between blocks the scan holds nothing. -/
@[simp] theorem weight_scanning : scanning.weight = 0 := rfl

/-- Inside a block the scan holds its opener unit and the units it collected. -/
@[simp] theorem weight_collecting (depth : Nat) (blob : Text) (opener : Node)
    (units : List Node) :
    (collecting depth blob opener units).weight = opener.weight + Node.weights units := rfl

/-- A hidden block weighs one more than the units it owns. -/
theorem weight_hiddenBlock (settings : Settings) (blob : Text) (units : List Node) :
    (hiddenBlock settings blob units).weight = 1 + Node.weights units := rfl

/-- One step keeps the weight of what it yields and of its state within what it was given. -/
theorem Step.weight {settings : Settings} {state next : BlockScan} {unit : Node}
    {outcome : Resolution} (step : Step settings state unit outcome next) :
    next.weight ≤ state.weight + unit.weight ∧
      ∀ node ∈ outcome.nodes, node.weight ≤ state.weight + unit.weight := by
  cases step with
  | outside plain => simp [Resolution.nodes]
  | opening opens acts =>
    obtain ⟨markerWeight, leadingWeight⟩ := weight_openerUnit opens
    refine ⟨by simpa using markerWeight, ?_⟩
    intro node member
    rw [nodes_openerOutcome, Option.mem_toList] at member
    simpa using leadingWeight node member
  | deeper opens => simp [Resolution.nodes, Nat.add_assoc]
  | within unopened unclosed => simp [Resolution.nodes, Nat.add_assoc]
  | shallower unopened closes nested => simp [Resolution.nodes, Nat.add_assoc]
  | @closing _ _ opener _ _ _ unopened closes last =>
    have bounded := weights_closerUnit closes
    have positive := Node.one_le_weight opener
    refine ⟨by simp, ?_⟩
    intro node member
    rw [Resolution.nodes, List.mem_singleton] at member
    subst member
    simp only [weight_hiddenBlock, Node.weights_append, weight_collecting]
    omega

/-- The same over several units. -/
theorem weight_feedAll (settings : Settings) (state : BlockScan) (units : List Node) :
    (feedAll settings state units).2.weight ≤ state.weight + Node.weights units ∧
      ∀ resolution ∈ (feedAll settings state units).1, ∀ node ∈ resolution.nodes,
        node.weight ≤ state.weight + Node.weights units := by
  induction units generalizing state with
  | nil => simp [feedAll]
  | cons unit rest inductionHypothesis =>
    obtain ⟨stateWeight, nodeWeight⟩ := (step_feed settings state unit).weight
    obtain ⟨lastWeight, laterWeight⟩ := inductionHypothesis (feed settings state unit).2
    simp only [feedAll, Node.weights_cons]
    refine ⟨by omega, ?_⟩
    intro resolution member node inside
    rcases List.mem_cons.mp member with same | later
    · subst same
      have bounded := nodeWeight node inside
      omega
    · have bounded := laterWeight resolution later node inside
      omega

/-- Nothing that the end of a sequence gives back weighs more than the block in progress. -/
theorem weight_finish (settings : Settings) (state : BlockScan) :
    ∀ resolution ∈ finish settings state, ∀ node ∈ resolution.nodes,
      node.weight ≤ state.weight := by
  fun_induction finish settings state with
  | case1 => simp
  | case2 depth blob opener units again inductionHypothesis =>
    obtain ⟨lastWeight, fedWeight⟩ := weight_feedAll settings scanning units
    intro resolution member node inside
    simp only [weight_scanning, weight_collecting] at fedWeight lastWeight ⊢
    rcases List.mem_cons.mp member with same | later
    · subst same
      simp only [Resolution.nodes, List.mem_singleton] at inside
      subst inside
      omega
    · rcases List.mem_append.mp later with fed | finished
      · have bounded := fedWeight resolution fed node inside
        omega
      · have bounded : node.weight ≤ (feedAll settings scanning units).2.weight :=
          inductionHypothesis resolution finished node inside
        omega

/-- Nothing that a sequence yields weighs more than the sequence. -/
theorem weight_outcomes (settings : Settings) (units : List Node) :
    ∀ resolution ∈ outcomes settings units, ∀ node ∈ resolution.nodes,
      node.weight ≤ Node.weights units := by
  obtain ⟨lastWeight, fedWeight⟩ := weight_feedAll settings scanning units
  simp only [weight_scanning] at lastWeight fedWeight
  intro resolution member node inside
  rcases List.mem_append.mp member with fed | finished
  · have bounded := fedWeight resolution fed node inside
    omega
  · have bounded := weight_finish settings _ resolution finished node inside
    omega

end BlockScan

end HiddenContent
