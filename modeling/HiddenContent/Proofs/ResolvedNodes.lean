import HiddenContent.Proofs.AuthoredUnits
import HiddenContent.Resolve
import Mathlib.Data.List.Basic

/-!
# What resolving carries over

Resolving follows the tree: a unit stays where everything in it stays, a text is cut into fragments
and blocks, and every other node comes back around its resolved children. So a property of all
nodes that result follows from a property of the nodes before, if each of these ways leads from the
one to the other.

Whatever the resolver goes into weighs less than what it came from. The induction is on a bound of
the weight, and each function is treated once under the assumption that lighter sequences are
carried over.
-/

namespace HiddenContent

/-- A node given its own children is the node. -/
theorem Node.withChildren_children (node : Node) : node.withChildren node.children = node := by
  cases node <;> rfl

/-! ## Units that stay -/

namespace BlockScan

/-- Outside a block, a unit that stays leaves the scan outside. -/
theorem feed_of_unchanged (settings : Settings) (unit : Node)
    (stays : (feed settings scanning unit).1.isUnchanged = true) :
    feed settings scanning unit = (.unchanged unit, scanning) := by
  cases selected : (openerUnit? unit).filter fun found => settings.acts found.opener.action with
  | none => simp [feed, selected]
  | some found =>
    rw [feed, selected] at stays
    cases leading : found.leading <;> simp [leading, Resolution.isUnchanged] at stays

/-- A scan whose outcomes all stay has met no opener. -/
theorem feedAll_of_unchanged (settings : Settings) (units : List Node)
    (stays : ∀ resolution ∈ (feedAll settings scanning units).1,
      resolution.isUnchanged = true) :
    feedAll settings scanning units = (units.map .unchanged, scanning) := by
  induction units with
  | nil => rfl
  | cons unit rest inductionHypothesis =>
    simp only [feedAll] at stays
    obtain ⟨first, others⟩ := List.forall_mem_cons.mp stays
    have plain := feed_of_unchanged settings unit first
    rw [plain] at others
    simp only [feedAll, plain, inductionHypothesis others, List.map_cons]

/-- Where every outcome of a scan stays, the outcomes are the units. -/
theorem outcomes_of_unchanged (settings : Settings) (units : List Node)
    (stays : ∀ resolution ∈ outcomes settings units, resolution.isUnchanged = true) :
    outcomes settings units = units.map .unchanged := by
  have fed := feedAll_of_unchanged settings units
    (fun resolution member => stays resolution (List.mem_append_left _ member))
  rw [outcomes, fed, finish, List.append_nil]

end BlockScan

namespace Resolve

variable {settings : Settings}

/-- When every outcome of a scan stays, the outcomes are the units. -/
theorem scanned_of_unchanged (scan : Bool) (nodes : List Node)
    (stays : ∀ resolution ∈ scanned settings scan nodes, resolution.isUnchanged = true) :
    scanned settings scan nodes = nodes.map .unchanged := by
  cases scan with
  | true => exact BlockScan.outcomes_of_unchanged settings nodes stays
  | false => rfl

/-- A property that the scan keeps is kept with or without a scan. -/
theorem keeps_scanned {holds : Node → Prop} (keeps : BlockScan.Keeps holds) {scan : Bool}
    {nodes : List Node} (each : ∀ node ∈ nodes, holds node) :
    ∀ resolution ∈ scanned settings scan nodes, resolution.Keeps settings holds := by
  cases scan with
  | true => exact keeps.outcomes each
  | false =>
    intro resolution member
    obtain ⟨node, inside, rfl⟩ := List.mem_map.mp member
    exact .unchanged (each node inside)

/-- A unit stays as it is, or other nodes take its place, at least one. -/
theorem content_unchanged_or_replaced (settings : Settings) (node : Node) :
    content settings node = .unchanged node ∨
      ∃ nodes, nodes ≠ [] ∧ content settings node = .replaced nodes := by
  rw [content]
  split
  · exact Or.inl rfl
  · split
    · rw [text_eq]
      simp only
      split
      · exact Or.inl rfl
      · rename_i hides
        refine Or.inr ⟨_, ?_, rfl⟩
        rintro empty
        simp [empty] at hides
    · rw [container]
      split
      · exact Or.inl rfl
      · simp only
        split
        · exact Or.inl rfl
        · exact Or.inr ⟨_, by simp, rfl⟩

/-- An outcome that stays once its content is resolved stayed before. -/
theorem isUnchanged_of_finished {resolution : Resolution}
    (stays : (finished settings resolution).isUnchanged = true) :
    resolution.isUnchanged = true := by
  cases resolution with
  | unchanged node => rfl
  | replaced nodes => exact stays
  | removed => exact stays

/-- Where the resolved units of a sequence all stay, they are its nodes. -/
theorem spliced_sequence_of_unchanged (scan : Bool) (nodes : List Node)
    (stays : (sequence settings scan nodes).all Resolution.isUnchanged = true) :
    spliced (sequence settings scan nodes) = nodes := by
  rw [sequence_eq, List.all_map, List.all_eq_true] at stays
  have same := scanned_of_unchanged scan nodes fun resolution member =>
    isUnchanged_of_finished (stays resolution member)
  have each : ∀ node ∈ nodes, (finished settings (.unchanged node)).nodes = [node] := by
    intro node member
    have kept := stays (.unchanged node) (by rw [same]; exact List.mem_map_of_mem member)
    rw [Function.comp_apply, finished] at kept
    rcases content_unchanged_or_replaced settings node with unchanged | ⟨others, _, replaced⟩
    · rw [finished, unchanged]
      rfl
    · rw [replaced] at kept
      exact absurd kept (by simp [Resolution.isUnchanged])
  rw [sequence_eq, same, spliced, List.map_map, List.flatMap_map]
  exact (List.flatMap_congr each).trans (List.flatMap_singleton' nodes)

/-! ## Something is left of every sequence -/

/-- The content of a node is never resolved to nothing. -/
theorem nodes_content_ne_nil (settings : Settings) (node : Node) :
    (content settings node).nodes ≠ [] := by
  rcases content_unchanged_or_replaced settings node with same | ⟨nodes, inhabited, same⟩
  · rw [same]
    exact List.cons_ne_nil node []
  · rw [same]
    exact inhabited

/-- A unit that a scan gives back is never resolved to nothing. -/
theorem emitted_ne_nil (settings : Settings) (node : Node) : emitted settings node ≠ [] := by
  cases hidden : node.isHidden with
  | true =>
    rw [emitted, if_pos hidden]
    simp
  | false =>
    rw [emitted_eq_content settings hidden]
    exact nodes_content_ne_nil settings node

/-- A unit that leaves something is left with something when it is resolved. -/
theorem nodes_finished_ne_nil {resolution : Resolution} (inhabited : resolution.nodes ≠ []) :
    (finished settings resolution).nodes ≠ [] := by
  cases resolution with
  | unchanged node => exact nodes_content_ne_nil settings node
  | replaced nodes =>
    obtain ⟨first, rest, rfl⟩ := List.exists_cons_of_ne_nil inhabited
    rw [finished, Resolution.nodes, List.flatMap_cons]
    exact List.append_ne_nil_of_left_ne_nil (emitted_ne_nil settings first) _
  | removed => exact absurd rfl inhabited

/-- A scan that ends outside any block has left something of its last unit. -/
theorem exists_left_of_scanning {state : BlockScan} {units : List Node} (inhabited : units ≠ [])
    (outside : (BlockScan.feedAll settings state units).2 = .scanning) :
    ∃ resolution ∈ (BlockScan.feedAll settings state units).1, resolution.nodes ≠ [] := by
  induction units generalizing state with
  | nil => exact absurd rfl inhabited
  | cons unit rest inductionHypothesis =>
    by_cases last : rest = []
    · subst last
      have step := BlockScan.step_feed settings state unit
      simp only [BlockScan.feedAll] at outside ⊢
      rw [outside] at step
      refine ⟨_, List.mem_singleton_self _, ?_⟩
      generalize (BlockScan.feed settings state unit).1 = outcome at step
      cases step with
      | outside plain => simp [Resolution.nodes]
      | closing unopened closes last => simp [Resolution.nodes]
    · obtain ⟨resolution, member, left⟩ := inductionHypothesis last outside
      exact ⟨resolution, List.mem_cons_of_mem _ member, left⟩

/-- A scan leaves something of its units. -/
theorem exists_left_of_scanned (settings : Settings) (scan : Bool) {nodes : List Node}
    (inhabited : nodes ≠ []) :
    ∃ resolution ∈ scanned settings scan nodes, resolution.nodes ≠ [] := by
  cases scan with
  | true =>
    cases state : (BlockScan.feedAll settings .scanning nodes).2 with
    | scanning =>
      obtain ⟨resolution, member, left⟩ := exists_left_of_scanning inhabited state
      exact ⟨resolution, List.mem_append_left _ member, left⟩
    | collecting depth blob opener units =>
      -- a block that is never closed gives its opener back
      refine ⟨.replaced [opener], List.mem_append_right _ ?_, by simp [Resolution.nodes]⟩
      rw [state, BlockScan.finish]
      exact List.mem_cons_self
  | false =>
    obtain ⟨first, rest, rfl⟩ := List.exists_cons_of_ne_nil inhabited
    exact ⟨.unchanged first, by simp [scanned], by simp [Resolution.nodes]⟩

/-- Nothing comes of nothing only. -/
theorem spliced_sequence_eq_nil_iff (scan : Bool) (nodes : List Node) :
    spliced (sequence settings scan nodes) = [] ↔ nodes = [] := by
  constructor
  · intro empty
    by_contra inhabited
    obtain ⟨resolution, member, left⟩ := exists_left_of_scanned settings scan inhabited
    rw [spliced, sequence_eq, List.flatMap_map] at empty
    exact nodes_finished_ne_nil left (List.flatMap_eq_nil_iff.mp empty resolution member)
  · rintro rfl
    rw [sequence_eq]
    cases scan with
    | true => simp [scanned, BlockScan.outcomes, BlockScan.feedAll, BlockScan.finish, spliced]
    | false => rfl

/-! ## Carried over -/

/-- What a hidden block owns is resolved as a note of its own. -/
theorem emitted_hiddenBlock (settings : Settings) (blob : Text) (units : List Node) :
    emitted settings (BlockScan.hiddenBlock settings blob units) =
      [BlockScan.hiddenBlock settings blob (document settings units)] := by
  have hidden : (BlockScan.hiddenBlock settings blob units).isHidden = true := rfl
  rw [emitted, if_pos hidden]
  rfl

/-- A property that nodes are given with, and one that is left of them, where every way of resolving
    leads from the first to the second. -/
structure Carries (settings : Settings) (given left : Node → Prop) : Prop where
  /-- The scan for blocks makes nodes that are given of nodes that are given. -/
  scan : BlockScan.Keeps given
  /-- A hidden unit stays as it is. -/
  hidden : ∀ node, given node → node.isHidden = true → left node
  /-- A text stays when its parts are texts. -/
  text : ∀ node, given node → node.isText = true →
    ((TextPart.ofText settings.directiveAction node.valueText).flatMap (partNodes settings)).all
      Node.isText = true → left node
  /-- A text between blocks is cut at its spans. -/
  split : ∀ shown, ∀ node ∈ splitInline settings shown, left node
  /-- A block is made around the nodes it owns. -/
  block : ∀ blob owned, (∀ node ∈ owned, left node) →
    left (BlockScan.hiddenBlock settings blob owned)
  /-- Any other node comes back around children of its own, if it has any. -/
  around : ∀ node children, given node → node.isText = false →
    (children = [] ↔ node.children = []) → (∀ child ∈ children, left child) →
    left (node.withChildren children)

/-- Sequences below a weight are carried over. -/
def CarriesBelow (settings : Settings) (given left : Node → Prop) (bound : Nat) : Prop :=
  ∀ scan nodes, Node.weights nodes < bound → (∀ node ∈ nodes, given node) →
    ∀ node ∈ spliced (sequence settings scan nodes), left node

namespace CarriesBelow

variable {given left : Node → Prop} {bound : Nat} {node : Node}

/-- The nodes of a part of a text have what is left. -/
theorem part (below : CarriesBelow settings given left bound)
    (carries : Carries settings given left) (light : node.weight ≤ bound) {part : TextPart}
    (member : part ∈ TextPart.ofText settings.directiveAction node.valueText) :
    ∀ result ∈ partNodes settings part, left result := by
  cases part with
  | visible shown => exact carries.split shown
  | block opener interior =>
    have lighter := weights_interior_lt member
    refine List.forall_mem_singleton.mpr (carries.block _ _ ?_)
    split
    · simp
    · exact below true _ (by omega) (List.forall_mem_singleton.mpr (carries.scan.text interior))

/-- The nodes of a text have what is left. -/
theorem text (below : CarriesBelow settings given left bound)
    (carries : Carries settings given left) (light : node.weight ≤ bound) (here : given node)
    (literal : node.isText = true) :
    ∀ result ∈ (text settings node).nodes, left result := by
  rw [text_eq]
  simp only
  split
  · rename_i texts
    exact List.forall_mem_singleton.mpr (carries.text node here literal texts)
  · intro result member
    obtain ⟨part, inText, inPart⟩ := List.mem_flatMap.mp member
    exact below.part carries light inText result inPart

/-- A node around its resolved children has what is left. -/
theorem around (below : CarriesBelow settings given left bound)
    (carries : Carries settings given left) (light : node.weight ≤ bound) (here : given node)
    (other : node.isText = false) (scan : Bool) :
    left (node.withChildren (spliced (sequence settings scan node.children))) := by
  have lighter := weights_children_lt node
  exact carries.around node _ here other (spliced_sequence_eq_nil_iff scan node.children)
    (below scan node.children (by omega) (carries.scan.inside node here))

/-- A container that stays is the container around its resolved children. -/
theorem container (below : CarriesBelow settings given left bound)
    (carries : Carries settings given left) (light : node.weight ≤ bound) (here : given node)
    (other : node.isText = false) :
    ∀ result ∈ (container settings node).nodes, left result := by
  have resolved := below.around carries light here other (scansChildren node.kind)
  rw [Resolve.container]
  split
  · rename_i empty
    rw [(spliced_sequence_eq_nil_iff _ _).mpr (List.isEmpty_iff.mp empty),
      ← List.isEmpty_iff.mp empty, Node.withChildren_children] at resolved
    exact List.forall_mem_singleton.mpr resolved
  · simp only
    split
    · rename_i stays
      rw [spliced_sequence_of_unchanged _ _ stays, Node.withChildren_children] at resolved
      exact List.forall_mem_singleton.mpr resolved
    · exact List.forall_mem_singleton.mpr resolved

/-- The resolved content of a node has what is left. -/
theorem content (below : CarriesBelow settings given left bound)
    (carries : Carries settings given left) (light : node.weight ≤ bound) (here : given node) :
    ∀ result ∈ (content settings node).nodes, left result := by
  rw [Resolve.content]
  split
  · rename_i hidden
    exact List.forall_mem_singleton.mpr (carries.hidden node here hidden)
  · split
    · rename_i literal
      exact below.text carries light here literal
    · rename_i other
      exact below.container carries light here (by simpa using other)

/-- The nodes that a unit given back resolves to have what is left. -/
theorem emitted (below : CarriesBelow settings given left bound)
    (carries : Carries settings given left) (light : node.weight ≤ bound) (here : given node) :
    ∀ result ∈ emitted settings node, left result := by
  cases hidden : node.isHidden with
  | true =>
    rw [Resolve.emitted, if_pos hidden]
    exact List.forall_mem_singleton.mpr
      (below.around carries light here (Node.isText_of_isHidden hidden) true)
  | false =>
    rw [emitted_eq_content settings hidden]
    exact below.content carries light here

/-- A block that the scan made has what is left around its resolved units. -/
theorem block (below : CarriesBelow settings given left bound)
    (carries : Carries settings given left) {blob : Text} {units : List Node}
    (light : (BlockScan.hiddenBlock settings blob units).weight ≤ bound)
    (owned : ∀ unit ∈ units, given unit) :
    ∀ result ∈ Resolve.emitted settings (BlockScan.hiddenBlock settings blob units),
      left result := by
  have lighter : Node.weights units < (BlockScan.hiddenBlock settings blob units).weight :=
    weights_children_lt (BlockScan.hiddenBlock settings blob units)
  rw [emitted_hiddenBlock]
  exact List.forall_mem_singleton.mpr (carries.block blob _ (below true units (by omega) owned))

/-- Sequences of the next weight are carried over. -/
theorem succ (below : CarriesBelow settings given left bound)
    (carries : Carries settings given left) : CarriesBelow settings given left (bound + 1) := by
  intro scan nodes light each node member
  rw [spliced, sequence_eq, List.flatMap_map] at member
  obtain ⟨resolution, inScan, inNodes⟩ := List.mem_flatMap.mp member
  have lighter : ∀ {unit : Node}, unit ∈ resolution.nodes → unit.weight ≤ Node.weights nodes :=
    weight_scanned inScan
  cases keeps_scanned carries.scan each resolution inScan with
  | unchanged here =>
    have bounded := lighter (List.mem_singleton_self _)
    exact below.content carries (by omega) here node inNodes
  | replaced made =>
    obtain ⟨unit, inUnits, inEmitted⟩ := List.mem_flatMap.mp inNodes
    have bounded := lighter inUnits
    rcases made unit inUnits with here | ⟨blob, units, rfl, owned⟩
    · exact below.emitted carries (by omega) here node inEmitted
    · exact below.block carries (by omega) owned node inEmitted
  | removed => simp [finished, Resolution.nodes] at inNodes

end CarriesBelow

namespace Carries

variable {given left : Node → Prop}

/-- Sequences of any weight are carried over, by induction on a bound of the weight. -/
theorem below (carries : Carries settings given left) (bound : Nat) :
    CarriesBelow settings given left bound := by
  induction bound with
  | zero =>
    intro scan nodes light
    exact absurd light (Nat.not_lt_zero _)
  | succ bound inductionHypothesis => exact inductionHypothesis.succ carries

/-- Every node of a resolved sequence has what is left. -/
theorem sequence (carries : Carries settings given left) (scan : Bool) {nodes : List Node}
    (each : ∀ node ∈ nodes, given node) :
    ∀ node ∈ spliced (sequence settings scan nodes), left node :=
  carries.below (Node.weights nodes + 1) scan nodes (Nat.lt_succ_self _) each

end Carries

end Resolve

end HiddenContent
