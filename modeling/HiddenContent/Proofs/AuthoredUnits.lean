import HiddenContent.BlockScan.Step

/-!
# What a scan keeps

The scan for blocks takes units apart: it keeps what stands before an opener or a closer, makes a
unit of an opener line, and wraps collected units in a hidden block. A property that has all texts
and paragraphs, and stays when a node loses its last units, is a property of everything the scan
yields, but for the hidden blocks that it makes, which own units with the property.

One such property is to be authored: a note that was read and not yet resolved has no hidden nodes,
and its texts enclose nothing. The texts that reach the result of resolving can take any of these
ways.
-/

namespace HiddenContent

namespace Node

/-- A property of a node and of all nodes below it. -/
inductive Everywhere (holds : Node → Prop) : Node → Prop where
  | node {node : Node} (here : holds node)
      (below : ∀ child ∈ node.children, Everywhere holds child) : Everywhere holds node

/-- What holds everywhere in a node holds of the node. -/
theorem Everywhere.here {holds : Node → Prop} {node : Node} (every : node.Everywhere holds) :
    holds node := by
  cases every with
  | node here below => exact here

/-- What holds everywhere in a node holds everywhere in its children. -/
theorem Everywhere.inside {holds : Node → Prop} {node : Node} (every : node.Everywhere holds) :
    ∀ child ∈ node.children, child.Everywhere holds := by
  cases every with
  | node here below => exact below

/-- A node that does not stand for hidden content, and encloses nothing when it is a text. -/
structure IsPlain (node : Node) : Prop where
  shown : node.isHidden = false
  childless : node.isText = true → node.children = []

/-- A node as it is before it is resolved, with everything below it. -/
def Authored (node : Node) : Prop := node.Everywhere IsPlain

/-- A text is authored: it is no hidden node and has none below it. -/
theorem authored_ofText (value : Text) : (ofText value).Authored :=
  .node ⟨rfl, fun _ => rfl⟩ (by simp [ofText, children])

/-- An element of another kind than a text, over authored children, is authored. -/
theorem authored_element {kind : Json} (value : Json) {children : List Node}
    (data : Json.Members) (other : kind.text ≠ textKind)
    (authored : ∀ child ∈ children, child.Authored) :
    (element kind value children data).Authored := by
  refine .node ⟨rfl, ?_⟩ authored
  intro text
  exact absurd (beq_iff_eq.mp text) other

/-- A paragraph over authored children is authored. -/
theorem authored_paragraph {children : List Node} (authored : ∀ child ∈ children, child.Authored) :
    (paragraph children).Authored :=
  authored_element .null [] (by decide) authored

end Node

namespace BlockScan

/-- A property that stays when the scan takes a node apart. -/
structure Keeps (holds : Node → Prop) : Prop where
  text : ∀ value, holds (Node.ofText value)
  paragraph : ∀ children, (∀ child ∈ children, holds child) → holds (Node.paragraph children)
  inside : ∀ node, holds node → ∀ child ∈ node.children, holds child
  trimmed : ∀ node kept, holds node → node.isText = false → node.children ≠ [] → kept ≠ [] →
    (∀ child ∈ kept, holds child) → holds (node.withChildren kept)

/-- The parts that the scan makes of authored nodes are authored. -/
theorem keeps_authored : Keeps Node.Authored where
  text := Node.authored_ofText
  paragraph := fun _ => Node.authored_paragraph
  inside := fun _ authored => authored.inside
  trimmed := by
    intro node kept authored other _ _ inside
    cases node with
    | element kind value children data =>
      exact Node.authored_element value data (by simpa [Node.isText, Node.kind] using other) inside
    | hiddenInline attributes payload label =>
      exact absurd authored.here.shown (by simp [Node.isHidden])
    | hiddenBlock attributes label children =>
      exact absurd authored.here.shown (by simp [Node.isHidden])

/-- Dropping line breaks at the end brings no new node. -/
theorem withoutLastBreaks_subset (nodes : List Node) : withoutLastBreaks nodes ⊆ nodes := by
  intro node member
  rw [withoutLastBreaks, List.mem_reverse] at member
  exact List.mem_reverse.mp ((List.dropWhile_sublist _).subset member)

namespace Keeps

variable {holds : Node → Prop}

/-- What is kept holds of what stands before an opener line. -/
theorem visibleHead (keeps : Keeps holds) (head : Text) :
    ∀ node ∈ visibleHead head, holds node := by
  intro node member
  rw [BlockScan.visibleHead] at member
  split at member
  · simp at member
  · rw [List.mem_singleton] at member
    exact member ▸ keeps.text head

/-- What an opener leaves of its unit has the property, and so has the opener on its own. -/
theorem openerUnit (keeps : Keeps holds) {unit : Node} {found : OpenerUnit} (here : holds unit)
    (opened : openerUnit? unit = some found) :
    holds found.marker ∧ ∀ leading ∈ found.leading, holds leading := by
  unfold openerUnit? at opened
  split at opened
  · obtain ⟨⟨opener, line, head⟩, _, rfl⟩ := Option.map_eq_some_iff.mp opened
    refine ⟨keeps.text line, ?_⟩
    intro leading present
    exact keeps.visibleHead head leading
      (withoutLastBreaks_subset _ (List.mem_of_mem_head? present))
  · split at opened
    · obtain ⟨last, _, mapped⟩ := Option.bind_eq_some_iff.mp opened
      obtain ⟨⟨opener, line, head⟩, _, rfl⟩ := Option.map_eq_some_iff.mp mapped
      constructor
      · apply keeps.paragraph
        intro child member
        exact List.mem_singleton.mp member ▸ keeps.text line
      · intro leading present
        simp only at present
        split at present
        · simp at present
        · rw [Option.mem_def, Option.some.injEq] at present
          subst present
          apply keeps.paragraph
          intro child member
          rcases List.mem_append.mp (withoutLastBreaks_subset _ member) with before | inHead
          · exact keeps.inside unit here child (List.dropLast_subset _ before)
          · exact keeps.visibleHead head child inHead
    · simp at opened

/-- What is kept holds of what a closer leaves of a text. -/
theorem closerOfValue (keeps : Keeps holds) {value : Text} {residual : Option Node}
    (found : closerOfValue? value = some residual) : ∀ node ∈ residual, holds node := by
  unfold closerOfValue? at found
  simp only at found
  split at found
  · rw [Option.some.injEq] at found
    simp [← found]
  · split at found
    · simp at found
    · rename_i head line _
      split at found
      · rw [Option.some.injEq] at found
        subst found
        intro node present
        exact keeps.visibleHead head node (List.mem_of_mem_head? present)
      · simp at found

/-- What a closer leaves of a container has the property if its units have it. -/
theorem container (keeps : Keeps holds) {node : Node} (here : holds node)
    (other : node.isText = false) {kept : List Node} (inhabited : node.children ≠ [])
    (inside : ∀ child ∈ kept, holds child) :
    ∀ left ∈ (if (withoutLastBreaks kept).isEmpty then none
      else some (node.withChildren (withoutLastBreaks kept))), holds left := by
  intro left present
  split at present
  · simp at present
  · rename_i some
    rw [Option.mem_def, Option.some.injEq] at present
    subst present
    exact keeps.trimmed node _ here other inhabited (by simpa using some)
      fun child member => inside child (withoutLastBreaks_subset kept member)

mutual

/-- What a closer leaves of its unit has the property. -/
theorem closerUnit (keeps : Keeps holds) : ∀ {unit : Node} {residual : Option Node}, holds unit →
    closerUnit? unit = some residual → ∀ node ∈ residual, holds node
  | .element kind value children data, residual, here, found => by
    unfold closerUnit? at found
    split at found
    · exact keeps.closerOfValue found
    · rename_i other
      obtain ⟨kept, closes, rfl⟩ := Option.map_eq_some_iff.mp found
      obtain ⟨inhabited, trimmed⟩ := keeps.closerOfLast (keeps.inside _ here) closes
      exact keeps.container here (by simpa [Node.isText, Node.kind] using other) inhabited trimmed
  | .hiddenInline _ _ _, _, _, found => by simp [closerUnit?] at found
  | .hiddenBlock attributes label children, residual, here, found => by
    unfold closerUnit? at found
    obtain ⟨kept, closes, rfl⟩ := Option.map_eq_some_iff.mp found
    obtain ⟨inhabited, trimmed⟩ := keeps.closerOfLast (keeps.inside _ here) closes
    exact keeps.container here (Node.isText_of_isHidden rfl) inhabited trimmed

/-- What a closer leaves of the last unit has the property, like the units before it. -/
theorem closerOfLast (keeps : Keeps holds) : ∀ {units kept : List Node},
    (∀ unit ∈ units, holds unit) → closerOfLast? units = some kept →
    units ≠ [] ∧ ∀ node ∈ kept, holds node
  | [], _, _, found => by simp [closerOfLast?] at found
  | [last], kept, here, found => by
    unfold closerOfLast? at found
    obtain ⟨residual, inside, rfl⟩ := Option.map_eq_some_iff.mp found
    refine ⟨by simp, ?_⟩
    intro node member
    exact keeps.closerUnit (here last (by simp)) inside node (Option.mem_toList.mp member)
  | first :: second :: rest, kept, here, found => by
    unfold closerOfLast? at found
    obtain ⟨later, inside, rfl⟩ := Option.map_eq_some_iff.mp found
    obtain ⟨_, others⟩ := keeps.closerOfLast
      (fun unit member => here unit (List.mem_cons_of_mem first member)) inside
    exact ⟨by simp, List.forall_mem_cons.mpr ⟨here first (by simp), others⟩⟩

end

end Keeps

/-- True for a state that holds nodes with the property only. -/
def HoldsOnly (holds : Node → Prop) : BlockScan → Prop
  | scanning => True
  | collecting _ _ opener units => holds opener ∧ ∀ unit ∈ units, holds unit

end BlockScan

/-- An outcome of a scan of nodes with a property: the unit itself, or nodes that have the property
    or are hidden blocks of such nodes. -/
inductive Resolution.Keeps (settings : Settings) (holds : Node → Prop) : Resolution → Prop where
  | unchanged {node : Node} (here : holds node) : Keeps settings holds (.unchanged node)
  | replaced {nodes : List Node}
      (each : ∀ node ∈ nodes, holds node ∨ ∃ blob units,
        node = BlockScan.hiddenBlock settings blob units ∧ ∀ unit ∈ units, holds unit) :
      Keeps settings holds (.replaced nodes)
  | removed : Keeps settings holds .removed

namespace BlockScan

variable {settings : Settings} {holds : Node → Prop}

/-- A state still holds nodes with the property when one more is collected. -/
theorem HoldsOnly.collected {depth : Nat} {blob : Text} {opener : Node} {units : List Node}
    (only : (collecting depth blob opener units).HoldsOnly holds) {unit : Node}
    (here : holds unit) (next : Nat) :
    (collecting next blob opener (units ++ [unit])).HoldsOnly holds :=
  ⟨only.1, List.forall_mem_append.mpr ⟨only.2, List.forall_mem_singleton.mpr here⟩⟩

/-- One step of the scan keeps the property. -/
theorem Step.keeps (keeps : Keeps holds) {state next : BlockScan} {unit : Node}
    {outcome : Resolution} (step : Step settings state unit outcome next)
    (only : state.HoldsOnly holds) (here : holds unit) :
    next.HoldsOnly holds ∧ outcome.Keeps settings holds := by
  cases step with
  | outside plain => exact ⟨trivial, .unchanged here⟩
  | @opening _ found opens acts =>
    obtain ⟨marker, before⟩ := keeps.openerUnit here opens
    refine ⟨⟨marker, by simp⟩, ?_⟩
    rw [openerOutcome]
    split
    · rename_i leading same
      exact .replaced (List.forall_mem_singleton.mpr (Or.inl (before leading same)))
    · exact .removed
  | deeper opens => exact ⟨only.collected here _, .removed⟩
  | within unopened unclosed => exact ⟨only.collected here _, .removed⟩
  | shallower unopened closes nested => exact ⟨only.collected here _, .removed⟩
  | closing unopened closes last =>
    refine ⟨trivial, .replaced (List.forall_mem_singleton.mpr (Or.inr ⟨_, _, rfl, ?_⟩))⟩
    intro child member
    rcases List.mem_append.mp member with collected | left
    · exact only.2 child collected
    · exact keeps.closerUnit here closes child (Option.mem_toList.mp left)

namespace Keeps

/-- The same over several units. -/
theorem feedAll (keeps : Keeps holds) {state : BlockScan} {units : List Node}
    (only : state.HoldsOnly holds) (each : ∀ unit ∈ units, holds unit) :
    (feedAll settings state units).2.HoldsOnly holds ∧
      ∀ resolution ∈ (feedAll settings state units).1, resolution.Keeps settings holds := by
  induction units generalizing state with
  | nil => exact ⟨only, by simp [BlockScan.feedAll]⟩
  | cons unit rest inductionHypothesis =>
    obtain ⟨first, others⟩ := List.forall_mem_cons.mp each
    obtain ⟨next, resolved⟩ := (step_feed settings state unit).keeps keeps only first
    obtain ⟨last, later⟩ := inductionHypothesis next others
    exact ⟨last, List.forall_mem_cons.mpr ⟨resolved, later⟩⟩

/-- What the end of a sequence gives back comes from what the state holds. -/
theorem finish (keeps : Keeps holds) (state : BlockScan) (only : state.HoldsOnly holds) :
    ∀ resolution ∈ finish settings state, resolution.Keeps settings holds := by
  fun_induction BlockScan.finish settings state with
  | case1 => simp
  | case2 depth blob opener units again inductionHypothesis =>
    obtain ⟨last, fed⟩ :=
      keeps.feedAll (show HoldsOnly holds scanning from trivial) only.2
    exact List.forall_mem_cons.mpr
      ⟨.replaced (List.forall_mem_singleton.mpr (Or.inl only.1)),
        List.forall_mem_append.mpr ⟨fed, inductionHypothesis last⟩⟩

/-- Every outcome of a scan comes from the units of the scan. -/
theorem outcomes (keeps : Keeps holds) {units : List Node} (each : ∀ unit ∈ units, holds unit) :
    ∀ resolution ∈ outcomes settings units, resolution.Keeps settings holds := by
  obtain ⟨last, fed⟩ := keeps.feedAll (show HoldsOnly holds scanning from trivial) each
  exact List.forall_mem_append.mpr ⟨fed, keeps.finish _ last⟩

end Keeps

end BlockScan

end HiddenContent
