import HiddenContent.Proofs.SearchedText
import Mathlib.Data.List.Chain

/-!
# A text is split where it is encoded

A view of a text has hidden nodes in place of its spans of the configured action, and the stored
text has what is written for them. The splitter goes from one of these spans to the next, so that
everything between two of them is one fragment. The encoder goes from span to span of any action
and copies the others. Both cut at the same places: with what is written for each span in the place
of its hidden node, the view is the stored text.

Nothing else is lost on the way. The values of the fragments are the characters that stand in no
span of the action, which `Span.outside` takes from the text by their positions alone.
-/

namespace HiddenContent

/-! ## Characters outside spans -/

namespace Span

/-- True for the positions from the start of a span on and before its stop. -/
def covers (span : Span) (pos : Nat) : Bool := span.start ≤ pos && pos < span.stop

/-- A span covers the positions from its start to the one before its stop. -/
theorem covers_iff (span : Span) (pos : Nat) :
    span.covers pos = true ↔ span.start ≤ pos ∧ pos < span.stop := by
  simp [covers]

/-- The characters that stand in none of the spans, of a text that begins at `start`. -/
def outside (spans : List Span) (start : Nat) (text : Text) : Text :=
  ((text.zipIdx start).filter fun (_, pos) => !spans.any (·.covers pos)).map Prod.fst

/-- What is outside of spans is found part by part. -/
theorem outside_append (spans : List Span) (start : Nat) (first last : Text) :
    outside spans start (first ++ last) =
      outside spans start first ++ outside spans (start + first.length) last := by
  simp [outside, List.zipIdx_append]

/-- A part that no span covers is outside of them. -/
theorem outside_of_uncovered {spans : List Span} {start : Nat} {text : Text}
    (uncovered : ∀ span ∈ spans, start + text.length ≤ span.start ∨ span.stop ≤ start) :
    outside spans start text = text := by
  have kept : ((text.zipIdx start).filter fun (_, pos) => !spans.any (·.covers pos)) =
      text.zipIdx start := by
    apply List.filter_eq_self.mpr
    rintro ⟨c, pos⟩ member
    obtain ⟨behind, ahead, _⟩ := List.mem_zipIdx member
    simp only [Bool.not_eq_true', List.any_eq_false, covers_iff]
    intro span inSpans
    have apart := uncovered span inSpans
    omega
  rw [outside, kept, List.zipIdx_map_fst]

/-- Nothing of a part that one span covers is outside of the spans. -/
theorem outside_of_covered {spans : List Span} {start : Nat} {text : Text} {span : Span}
    (member : span ∈ spans) (before : span.start ≤ start)
    (after : start + text.length ≤ span.stop) : outside spans start text = [] := by
  have none : ((text.zipIdx start).filter fun (_, pos) => !spans.any (·.covers pos)) = [] := by
    apply List.filter_eq_nil_iff.mpr
    rintro ⟨c, pos⟩ inText
    obtain ⟨behind, ahead, _⟩ := List.mem_zipIdx inText
    simp only [Bool.not_eq_true', Bool.not_eq_false, List.any_eq_true, covers_iff]
    exact ⟨span, member, by omega, by omega⟩
  rw [outside, none, List.map_nil]

/-- Behind a span, the other spans say what is outside. -/
theorem outside_cons_of_behind {spans : List Span} {start : Nat} (text : Text) {span : Span}
    (behind : span.stop ≤ start) :
    outside (span :: spans) start text = outside spans start text := by
  rw [outside, outside]
  congr 1
  apply List.filter_congr
  rintro ⟨c, pos⟩ member
  have passed := List.le_snd_of_mem_zipIdx member
  have uncovered : span.covers pos = false := by
    rw [← Bool.not_eq_true, covers_iff]
    omega
  simp [uncovered]

end Span

/-- A placed span begins at the position of its pieces or later. -/
theorem Piece.start_le_of_mem_placed {pieces : List Piece} {pos : Nat} {span : Span}
    (member : span ∈ placed pos pieces) : pos ≤ span.start := by
  obtain ⟨before, written, reading, after, _, rfl⟩ := exists_of_mem_placed member
  simp only [Span.moved]
  omega

/-- What is shown of pieces stands outside of their spans of the configured action. -/
theorem Settings.outside_placed (settings : Settings) {reader : Reader} {pieces : List Piece}
    (scan : Piece.Scan reader pieces) (pos : Nat) :
    Span.outside ((Piece.placed pos pieces).filter fun span => settings.acts span.action) pos
        (Piece.textOf pieces) = settings.shownOf pieces := by
  induction scan generalizing pos with
  | done => rfl
  | @pass c rest refused later inductionHypothesis =>
    have here : Span.outside ((Piece.placed (pos + 1) rest).filter
        fun span => settings.acts span.action) pos [c] = [c] := by
      apply Span.outside_of_uncovered
      intro span member
      exact Or.inl (Piece.start_le_of_mem_placed (List.mem_of_mem_filter member))
    calc Span.outside ((Piece.placed (pos + 1) rest).filter fun span =>
            settings.acts span.action) pos ([c] ++ Piece.textOf rest)
        = [c] ++ settings.shownOf rest := by
          rw [Span.outside_append, here, List.length_singleton, inductionHypothesis]
      _ = settings.shownOf (.plain c :: rest) := rfl
  | @take written reading rest reads later inductionHypothesis =>
    have start : (reading.moved pos).start = pos := by simp [Span.moved, reads.start]
    have stop : (reading.moved pos).stop = pos + written.length := by
      simp [Span.moved, reads.stop]
    rw [Piece.textOf_form, Span.outside_append, Piece.placed, List.filter_cons]
    have behind : ∀ span ∈ (Piece.placed (pos + written.length) rest).filter
        (fun span => settings.acts span.action), pos + written.length ≤ span.start :=
      fun span member => Piece.start_le_of_mem_placed (List.mem_of_mem_filter member)
    by_cases acts : settings.acts reading.action = true
    · have hidden : settings.acts (reading.moved pos).action = true := acts
      rw [if_pos hidden, Span.outside_of_covered List.mem_cons_self (by omega) (by omega),
        Span.outside_cons_of_behind _ (by omega), inductionHypothesis, Settings.shownOf_cons,
        settings.shownPiece_of_acts written reading acts]
    · have shown : ¬settings.acts (reading.moved pos).action = true := acts
      rw [if_neg shown, Span.outside_of_uncovered fun span member => Or.inl (behind span member),
        inductionHypothesis, Settings.shownOf_cons]
      simp [Settings.shownPiece, Piece.rewritten, acts]

/-! ## The nodes of a split text -/

/-- The values of the texts in a sequence of nodes, with the next image in place of each other
    node. -/
def Node.refilled : List Node → List Text → Text
  | [], _ => []
  | node :: rest, images =>
    if node.isText then node.valueText ++ refilled rest images
    else images.headD [] ++ refilled rest images.tail

namespace Resolve

variable (settings : Settings)

/-- A fragment is no node for the empty text, and one text node for any other. -/
theorem fragment_cases (text : Text) :
    (text = [] ∧ fragment text = []) ∨ (text ≠ [] ∧ fragment text = [Node.ofText text]) := by
  by_cases empty : text = []
  · exact Or.inl ⟨empty, by simp [fragment, empty]⟩
  · exact Or.inr ⟨empty, by simp [fragment, empty]⟩

/-- Each span has one hidden node, in order. -/
theorem filter_isHidden_splitAtSpans (text : Text) (pos : Nat) (spans : List Span) :
    (splitAtSpans settings text pos spans).filter Node.isHidden =
      spans.map (hiddenNode settings) := by
  have shown (part : Text) : (fragment part).filter Node.isHidden = [] := by
    rcases fragment_cases part with ⟨_, same⟩ | ⟨_, same⟩ <;> rw [same] <;> rfl
  induction spans generalizing pos with
  | nil => exact shown _
  | cons span rest inductionHypothesis =>
    rw [splitAtSpans, List.filter_append, shown, List.filter_cons,
      if_pos (isHidden_hiddenNode settings span), inductionHypothesis]
    rfl

/-- Every other node is a text that is not empty. -/
theorem exists_of_mem_splitAtSpans (text : Text) (pos : Nat) (spans : List Span) {node : Node}
    (member : node ∈ splitAtSpans settings text pos spans) (shown : node.isHidden = false) :
    ∃ value, value ≠ [] ∧ node = Node.ofText value := by
  have fragments (part : Text) (inside : node ∈ fragment part) :
      ∃ value, value ≠ [] ∧ node = Node.ofText value := by
    rcases fragment_cases part with ⟨_, same⟩ | ⟨inhabited, same⟩
    · simp [same] at inside
    · rw [same, List.mem_singleton] at inside
      exact ⟨part, inhabited, inside⟩
  induction spans generalizing pos with
  | nil => exact fragments _ member
  | cons span rest inductionHypothesis =>
    rw [splitAtSpans] at member
    rcases List.mem_append.mp member with before | after
    · exact fragments _ before
    · rcases List.mem_cons.mp after with rfl | later
      · simp [isHidden_hiddenNode] at shown
      · exact inductionHypothesis _ later

/-- No two texts stand side by side. -/
theorem isChain_splitAtSpans (text : Text) (pos : Nat) (spans : List Span) :
    (splitAtSpans settings text pos spans).IsChain
      fun first second => ¬(first.isText = true ∧ second.isText = true) := by
  induction spans generalizing pos with
  | nil =>
    rw [splitAtSpans]
    rcases fragment_cases (text.drop pos) with ⟨_, same⟩ | ⟨_, same⟩ <;> simp [same]
  | cons span rest inductionHypothesis =>
    have other := Node.isText_of_isHidden (isHidden_hiddenNode settings span)
    have onward : (hiddenNode settings span :: splitAtSpans settings text span.stop rest).IsChain
        fun first second => ¬(first.isText = true ∧ second.isText = true) := by
      apply (inductionHypothesis span.stop).cons
      intro next _
      simp [other]
    rw [splitAtSpans]
    rcases fragment_cases (text.slice pos span.start) with ⟨_, same⟩ | ⟨_, same⟩
    · rwa [same]
    · rw [same, List.singleton_append, List.isChain_cons_cons]
      exact ⟨by simp [other], onward⟩

/-- With what is written for each span in place of its node, the nodes are the spliced text. -/
theorem refilled_splitAtSpans (write : Span → Text) (text : Text) (pos : Nat)
    (spans : List Span) :
    Node.refilled (splitAtSpans settings text pos spans) (spans.map write) =
      Span.splice text write pos spans := by
  have kept (part : Text) (nodes : List Node) (images : List Text) :
      Node.refilled (fragment part ++ nodes) images = part ++ Node.refilled nodes images := by
    rcases fragment_cases part with ⟨rfl, same⟩ | ⟨_, same⟩
    · rw [same]
      rfl
    · rw [same]
      rfl
  induction spans generalizing pos with
  | nil =>
    have last := kept (text.drop pos) [] []
    rw [List.append_nil] at last
    rw [splitAtSpans, List.map_nil, last]
    simp [Node.refilled, Span.splice]
  | cons span rest inductionHypothesis =>
    have other := Node.isText_of_isHidden (isHidden_hiddenNode settings span)
    rw [splitAtSpans, kept, Node.refilled, other, Span.splice, List.map_cons, List.tail_cons,
      inductionHypothesis]
    simp

end Resolve

/-- Encoding writes anew at the spans of the configured action only: a token there is written as
    it is. -/
theorem Settings.splice_encodeSpan (settings : Settings) (text : Text) :
    Span.splice text (settings.encodeSpan text) 0
        ((Tokens.ofText text true).filter fun span => settings.acts span.action) =
      settings.encodeInline text := by
  obtain ⟨scan, whole⟩ := Piece.scan_cut (Reader.isLocal_all true) text
  have spliced := Piece.splice_placed text (fun span => settings.acts span.action)
    (settings.encodeSpan text) (fun written reading => settings.storedPiece (.form written reading))
    (fun _ _ => rfl)
    (by
      intro first written reading last same reads
      subst same
      rw [encodeSpan, Piece.slice_moved first written last reading reads]
      rfl)
    scan [] [] (by simpa using whole.symm)
  have pieces : Piece.rewritten (fun span => settings.acts span.action)
      (fun written reading => settings.storedPiece (.form written reading)) =
      settings.storedPiece := by
    funext piece
    cases piece with
    | plain c => rfl
    | form written reading =>
      by_cases acts : settings.acts reading.action = true
      · simp [Piece.rewritten, acts]
      · simp [Piece.rewritten, storedPiece, hides, acts]
  rw [Tokens.ofText_eq_placed, settings.encodeInline_eq, ← pieces]
  simpa using spliced

namespace Resolve

/-- A text is split at its spans of the configured action, and at no other place: each of them has
    one hidden node, in order, and what stands between two of them is one text that is not empty,
    or nothing. The texts are the characters outside of these spans, and with what encoding writes
    for each span in the place of its hidden node, the nodes are the stored text.

    Proof: the parts about nodes are inductions over the spans at which the text is split. What they
    show and what is stored are compared with the pieces of the text. -/
theorem splitInline_places (settings : Settings) (text : Text) :
    let spans := (Tokens.ofText text true).filter fun span => settings.acts span.action
    let nodes := splitInline settings text
    nodes.filter Node.isHidden = spans.map (hiddenNode settings) ∧
      (∀ node ∈ nodes, node.isHidden = false →
        ∃ value, value ≠ [] ∧ node = Node.ofText value) ∧
      nodes.IsChain (fun first second => ¬(first.isText = true ∧ second.isText = true)) ∧
      (nodes.filter Node.isText).flatMap Node.valueText = Span.outside spans 0 text ∧
      Node.refilled nodes (spans.map (settings.encodeSpan text)) =
        settings.encodeInline text := by
  intro spans nodes
  refine ⟨filter_isHidden_splitAtSpans settings text 0 spans,
    fun node member shown => exists_of_mem_splitAtSpans settings text 0 spans member shown,
    isChain_splitAtSpans settings text 0 spans, ?_, ?_⟩
  · have childless : ∀ node ∈ nodes, node.children = [] :=
      fun node member => (isFragment_splitInline settings text node member).childless
    obtain ⟨scan, whole⟩ := Piece.scan_cut (Reader.isLocal_all true) text
    have shown := settings.outside_placed scan 0
    rw [whole, ← Tokens.ofText_eq_placed] at shown
    rw [← Node.shownTexts_of_childless nodes childless, shownTexts_splitInline settings text]
    exact shown.symm
  · rw [← settings.splice_encodeSpan text]
    exact refilled_splitAtSpans settings (settings.encodeSpan text) text 0 spans

/-- A token of another action stays in the text around it, and two hidden nodes may stand side by
    side. -/
example : splitInline {} "a[x-block]b[hide-inline]:::hide c:::".toList =
    [Node.ofText "a[x-block]b".toList, .hiddenInline [] (.string []) (.string []),
      .hiddenInline [] "c".toList (.string [])] := by
  cbv

end Resolve

end HiddenContent
