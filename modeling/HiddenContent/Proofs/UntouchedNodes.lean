import HiddenContent.Proofs.SplitPlaces
import HiddenContent.Proofs.TextBlocks
import HiddenContent.Resolve.Progress

/-!
# Notes with nothing to hide

Resolving goes into the children of every node, except of texts and of what is hidden already, and
takes each sequence of siblings on its own. `Siblings` are the sequences that it reaches. A note is
unmarked if no such sequence that is scanned has a unit with an opener of the configured action, and
no text in them has a span of that action or begins its blocks with a closed one. Openers of other
actions, closers, openers where blocks are not scanned for, and openers that no line closes may all
be there.

An unmarked note comes back as it is, and so does every unit in it: no sequence ever begins to
collect, and each unit is answered as unchanged.
-/

namespace HiddenContent

namespace BlockScan

variable {settings : Settings}

/-- A scan that meets no opener of the configured action leaves every unit, and stays outside of any
    block. -/
theorem feedAll_of_unopened {units : List Node}
    (unopened : ∀ unit ∈ units,
      ((openerUnit? unit).filter fun found => settings.acts found.opener.action) = none) :
    feedAll settings scanning units = (units.map .unchanged, scanning) := by
  induction units with
  | nil => rfl
  | cons unit rest inductionHypothesis =>
    obtain ⟨first, others⟩ := List.forall_mem_cons.mp unopened
    have taken : feed settings scanning unit = (.unchanged unit, scanning) :=
      (Step.outside first).feed_eq
    simp only [feedAll, taken, inductionHypothesis others, List.map_cons]

end BlockScan

namespace Resolve

/-- The sequences of siblings that resolving goes into, each with whether it is scanned for
    blocks. -/
inductive Siblings (nodes : List Node) : Bool → List Node → Prop where
  | top : Siblings nodes true nodes
  | inside {scan : Bool} {units : List Node} {node : Node} (around : Siblings nodes scan units)
      (member : node ∈ units) (shown : node.isHidden = false) (other : node.isText = false) :
      Siblings nodes (scansChildren node.kind) node.children

/-- A note without anything to hide: no unit that is scanned opens a block of the configured action,
    and no text has a span of it or a first block of it that is closed. -/
structure Unmarked (settings : Settings) (nodes : List Node) : Prop where
  unopened {units : List Node} (siblings : Siblings nodes true units) :
    ∀ unit ∈ units,
      ((BlockScan.openerUnit? unit).filter fun found => settings.acts found.opener.action) = none
  shows {scan : Bool} {units : List Node} (siblings : Siblings nodes scan units) :
    ∀ node ∈ units, node.isText = true → settings.ShowsWhole node.valueText
  unclosed {scan : Bool} {units : List Node} (siblings : Siblings nodes scan units) :
    ∀ node ∈ units, node.isText = true → ∀ region,
      BlockRegion.find? settings.directiveAction node.valueText.lines 0 = some region →
        region.closerLine = none

variable {settings : Settings} {nodes : List Node}

/-- A text without a span of the configured action, whose first block is not closed, stays. -/
theorem text_of_showsWhole {node : Node} (shows : settings.ShowsWhole node.valueText)
    (absent : Region.first? settings.directiveAction node.valueText.lines = none) :
    text settings node = .unchanged node := by
  have cut : splitInline settings node.valueText = fragment node.valueText :=
    splitInline_eq_fragment shows
  rw [text_eq, TextPart.ofText_of_none absent]
  simp only [List.flatMap_singleton, partNodes, cut]
  rcases fragment_cases node.valueText with ⟨_, same⟩ | ⟨_, same⟩
  · rw [same]
    rfl
  · rw [same]
    rfl

namespace Unmarked

/-- The scan leaves every sequence of an unmarked note as it is. -/
theorem scanned_eq (unmarked : Unmarked settings nodes) {scan : Bool} {units : List Node}
    (siblings : Siblings nodes scan units) :
    scanned settings scan units = units.map .unchanged := by
  cases scan with
  | true =>
    have fed := BlockScan.feedAll_of_unopened (unmarked.unopened siblings)
    rw [scanned, if_pos rfl, BlockScan.outcomes, fed, BlockScan.finish, List.append_nil]
  | false => rfl

/-- The content of every unit of an unmarked note stays. -/
theorem content_eq (unmarked : Unmarked settings nodes) {scan : Bool} {units : List Node}
    (siblings : Siblings nodes scan units) {node : Node} (member : node ∈ units) :
    content settings node = .unchanged node := by
  -- children weigh less than the node around them, whichever sequence they stand in
  induction bounded : node.weight using Nat.strong_induction_on generalizing scan units node with
  | _ weight inductionHypothesis =>
    subst bounded
    rw [content]
    by_cases hidden : node.isHidden = true
    · rw [if_pos hidden]
    · rw [if_neg hidden]
      by_cases isText : node.isText = true
      · rw [if_pos isText]
        apply text_of_showsWhole (unmarked.shows siblings node member isText)
        exact (BlockRegion.first?_eq_none_iff _ _ 0).mpr
          (unmarked.unclosed siblings node member isText)
      · rw [if_neg isText, container]
        have below : Siblings nodes (scansChildren node.kind) node.children :=
          siblings.inside member (Bool.eq_false_iff.mpr hidden) (Bool.eq_false_iff.mpr isText)
        have stay : (sequence settings (scansChildren node.kind) node.children).all
            Resolution.isUnchanged = true := by
          rw [sequence_eq, unmarked.scanned_eq below, List.all_map, List.all_map, List.all_eq_true]
          intro child inside
          have lighter : child.weight < node.weight :=
            Nat.lt_of_le_of_lt (Node.weight_le_weights inside) (weights_children_lt node)
          simp only [Function.comp_apply, finished,
            inductionHypothesis child.weight lighter below inside rfl]
          rfl
        simp only [stay, if_true, ite_self]

/-- Every sequence of an unmarked note is resolved to its own units. -/
theorem sequence_eq_map (unmarked : Unmarked settings nodes) {scan : Bool} {units : List Node}
    (siblings : Siblings nodes scan units) :
    sequence settings scan units = units.map .unchanged := by
  rw [sequence_eq, unmarked.scanned_eq siblings, List.map_map]
  apply List.map_congr_left
  intro node member
  exact unmarked.content_eq siblings member

/-- Taken unit by unit, a sequence of an unmarked note is answered with its own units, and never
    begins to collect. -/
theorem feedAll_eq (unmarked : Unmarked settings nodes) {scan : Bool} {units : List Node}
    (siblings : Siblings nodes scan units) :
    Progress.feedAll settings { scan } units = (units.map .unchanged, { scan }) := by
  have answers : units.map (content settings) = units.map .unchanged :=
    List.map_congr_left fun node member => unmarked.content_eq siblings member
  cases scan with
  | true =>
    have fed := BlockScan.feedAll_of_unopened (unmarked.unopened siblings)
    rw [Progress.feedAll_scanned, fed, List.map_map, ← answers]
    rfl
  | false => rw [Progress.feedAll_unscanned, answers]

end Unmarked

/-- A note without anything to hide is resolved to itself, and every unit in it, at any depth, is
    answered as unchanged by the resolver of its sequence.

    Proof: no unit opens a block, so the scan leaves each of them in its place, and the content of a
    node stays by induction on its weight. -/
theorem document_of_unmarked (settings : Settings) (nodes : List Node)
    (unmarked : Unmarked settings nodes) :
    document settings nodes = nodes ∧
      ∀ scan units, Siblings nodes scan units →
        Progress.feedAll settings { scan } units = (units.map .unchanged, { scan }) := by
  constructor
  · have whole := unmarked.sequence_eq_map .top
    rw [document, spliced, whole, List.flatMap_map]
    exact List.flatMap_singleton' nodes
  · intro scan units siblings
    exact unmarked.feedAll_eq siblings

/-- Openers where blocks are not scanned for, inside a hidden block and without a closer, a closer
    without an opener, a token of another action, and a kind with data of its own. -/
def unmarkedNote : List Node :=
  [.element "heading".toList .null [Node.ofText ":::hide".toList] [("depth".toList, .integer 1)],
    Node.paragraph [Node.ofText ":::".toList],
    .element "blockquote".toList .null
      [Node.paragraph [Node.ofText "a[x-block]\n:::hide\nb".toList]] [],
    .hiddenBlock [] (.string []) [Node.paragraph [Node.ofText ":::hide".toList]]]

/-- The values of its texts outside of the hidden block. -/
def unmarkedTexts : List Text :=
  [":::hide".toList, ":::".toList, "a[x-block]\n:::hide\nb".toList]

/-- The sequences of siblings in the note. -/
theorem Siblings.of_unmarkedNote {scan : Bool} {units : List Node}
    (siblings : Siblings unmarkedNote scan units) :
    scan = true ∧ units = unmarkedNote ∨
      scan = true ∧ units = [Node.paragraph [Node.ofText "a[x-block]\n:::hide\nb".toList]] ∨
      scan = false ∧ ∃ value ∈ unmarkedTexts, units = [Node.ofText value] := by
  induction siblings with
  | top => exact Or.inl ⟨rfl, rfl⟩
  | inside around member shown other inductionHypothesis =>
    rcases inductionHypothesis with ⟨_, rfl⟩ | ⟨_, rfl⟩ | ⟨_, value, _, rfl⟩
    · simp only [unmarkedNote, List.mem_cons, List.not_mem_nil, or_false] at member
      rcases member with rfl | rfl | rfl | rfl
      · exact Or.inr (Or.inr ⟨by decide, _, by simp [unmarkedTexts], rfl⟩)
      · exact Or.inr (Or.inr ⟨by decide, _, by simp [unmarkedTexts], rfl⟩)
      · exact Or.inr (Or.inl ⟨by decide, rfl⟩)
      · exact absurd shown (by decide)
    · rw [List.mem_singleton] at member
      subst member
      exact Or.inr (Or.inr ⟨by decide, _, by simp [unmarkedTexts], rfl⟩)
    · rw [List.mem_singleton] at member
      subst member
      exact absurd other (by simp [Node.ofText, Node.isText, Node.kind])

/-- This note has no directive of the action in any text, and nothing in it changes. -/
theorem document_of_unmarked_note :
    document {} unmarkedNote = unmarkedNote ∧
      Progress.feedAll {} {} unmarkedNote = (unmarkedNote.map .unchanged, {}) := by
  have plain : ∀ value ∈ unmarkedTexts,
      (∀ span ∈ Piece.placed 0 (Piece.cut (Reader.all true) value),
        Settings.acts {} span.action = false) ∧
      Region.first? "hide".toList value.lines = none := by decide
  have texts {scan : Bool} {units : List Node} (siblings : Siblings unmarkedNote scan units) :
      ∀ node ∈ units, node.isText = true →
        node.valueText ∈ unmarkedTexts := by
    rcases siblings.of_unmarkedNote with ⟨_, rfl⟩ | ⟨_, rfl⟩ | ⟨_, value, among, rfl⟩
    · decide
    · decide
    · intro node member _
      rw [List.mem_singleton.mp member]
      exact among
  have unmarked : Unmarked {} unmarkedNote := by
    constructor
    · intro units siblings
      rcases siblings.of_unmarkedNote with ⟨_, rfl⟩ | ⟨_, rfl⟩ | ⟨unscanned, _⟩
      · simp only [unmarkedNote, List.forall_mem_cons]
        exact ⟨rfl, rfl, rfl, rfl, by simp⟩
      · exact List.forall_mem_singleton.mpr rfl
      · exact absurd unscanned (by simp)
    · intro scan units siblings node member isText
      rw [Settings.ShowsWhole, Tokens.ofText_eq_placed]
      exact (plain _ (texts siblings node member isText)).1
    · intro scan units siblings node member isText
      exact (BlockRegion.first?_eq_none_iff _ _ 0).mp
        (plain _ (texts siblings node member isText)).2
  obtain ⟨same, answers⟩ := document_of_unmarked {} unmarkedNote unmarked
  exact ⟨same, answers true unmarkedNote .top⟩

end Resolve

end HiddenContent
