import HiddenContent.Proofs.Walk

/-!
# The walk takes the leftmost forms

`formAt?` asks at one position alone, with fresh memories, whether a form starts there.
`LeftmostFirst` says of a list of spans that it was taken by asking position after position: the
first form at or after the present position, then the first one from its end on, until no form
starts any more. There is one such list for each text, and it is what the walk yields with two
searches that run ahead and memories that are kept from step to step. So its spans stand in order
and apart, and every form of the text starts in one of them.
-/

namespace HiddenContent

namespace Reader

/-- A search finds the first position at which its reader reads. -/
theorem first?_cases {reader : Reader} (isLocal : reader.IsLocal) (text : Text) (pos : Nat) :
    (reader.first? text pos = none ∧ ∀ skip, reader (text.drop skip) = none) ∨
      ∃ skip reading, reader.first? text pos = some (reading.moved (pos + skip)) ∧
        reader (text.drop skip) = some reading ∧
        ∀ fewer, fewer < skip → reader (text.drop fewer) = none := by
  induction text generalizing pos with
  | nil =>
    have nothing : reader [] = none := by
      cases read : reader [] with
      | none => rfl
      | some reading =>
        obtain ⟨written, rest, whole, reads⟩ := isLocal [] reading read
        exact absurd (List.append_eq_nil_iff.mp whole.symm).1 reads.inhabited
    exact Or.inl ⟨rfl, fun skip => by rw [List.drop_nil, nothing]⟩
  | cons c rest inductionHypothesis =>
    cases read : reader (c :: rest) with
    | some reading =>
      refine Or.inr ⟨0, reading, by simp [first?, read], read, ?_⟩
      intro fewer before
      exact absurd before (Nat.not_lt_zero fewer)
    | none =>
      have next : reader.first? (c :: rest) pos = reader.first? rest (pos + 1) := by
        simp only [first?, read]
      rw [next]
      rcases inductionHypothesis (pos + 1) with
        ⟨missing, nothing⟩ | ⟨skip, reading, found, reads, passed⟩
      · refine Or.inl ⟨missing, ?_⟩
        intro skip
        cases skip with
        | zero => exact read
        | succ skip => exact nothing skip
      · refine Or.inr ⟨skip + 1, reading, ?_, reads, ?_⟩
        · rw [found, Nat.add_right_comm, Nat.add_assoc pos]
        · intro fewer before
          cases fewer with
          | zero => exact read
          | succ fewer => exact passed fewer (by omega)

end Reader

namespace Tokens

/-- The form that starts exactly at a position: a directive, or a token where tokens are wanted.
    The searches for its blob have fresh memories. -/
def formAt? (placeholders : Bool) (text : Text) (pos : Nat) : Option Span :=
  let fresh := Bounds.ofText text
  (fresh.inlineHere (text.drop pos) pos).1.or
    (if placeholders then (fresh.placeholderHere (text.drop pos) pos).1 else none)

/-- The spans that are taken from a position on, always the leftmost form first. -/
inductive LeftmostFirst (placeholders : Bool) (text : Text) : Nat → List Span → Prop where
  | done {pos : Nat}
      (nothing : ∀ later, pos ≤ later → formAt? placeholders text later = none) :
      LeftmostFirst placeholders text pos []
  | take {pos start : Nat} {span : Span} {rest : List Span} (after : pos ≤ start)
      (passed : ∀ between, pos ≤ between → between < start →
        formAt? placeholders text between = none)
      (starts : formAt? placeholders text start = some span)
      (later : LeftmostFirst placeholders text span.stop rest) :
      LeftmostFirst placeholders text pos (span :: rest)

variable {placeholders : Bool} {text : Text}

/-- A form is read at its position as in front of the rest of the text. -/
theorem formAt?_eq (placeholders : Bool) (text : Text) (pos : Nat) :
    formAt? placeholders text pos =
      (Reader.all placeholders (text.drop pos)).map (Span.moved pos) := by
  have fresh := Bounds.sound_ofText text
  rw [← here?_eq_moved, formAt?, here?, (Bounds.inlineHere_sound fresh pos rfl).1,
    (Bounds.placeholderHere_sound fresh pos rfl).1]
  cases Span.inlineHere? (text.drop pos) pos with
  | none => rfl
  | some span => rfl

/-- A form starts at its position, and ends after it inside the text. -/
theorem formAt?_bounds {pos : Nat} {span : Span}
    (starts : formAt? placeholders text pos = some span) :
    span.start = pos ∧ pos < span.stop ∧ span.stop ≤ text.length := by
  rw [formAt?_eq] at starts
  obtain ⟨reading, read, rfl⟩ := Option.map_eq_some_iff.mp starts
  obtain ⟨written, rest, whole, reads⟩ := Reader.isLocal_all placeholders _ reading read
  have inhabited := List.length_pos_iff.mpr reads.inhabited
  have size := congrArg List.length whole
  rw [List.length_drop, List.length_append] at size
  simp only [Span.moved, reads.start, reads.stop]
  omega

/-- From a position on, either no form starts any more or the search finds the leftmost one. -/
theorem find_cases (placeholders : Bool) (text : Text) (pos : Nat) :
    ((Reader.all placeholders).find text pos = none ∧
        ∀ later, pos ≤ later → formAt? placeholders text later = none) ∨
      ∃ span, (Reader.all placeholders).find text pos = some span ∧ pos ≤ span.start ∧
        formAt? placeholders text span.start = some span ∧
        ∀ between, pos ≤ between → between < span.start →
          formAt? placeholders text between = none := by
  have refused (later : Nat) (after : pos ≤ later)
      (nothing : Reader.all placeholders ((text.drop pos).drop (later - pos)) = none) :
      formAt? placeholders text later = none := by
    rw [List.drop_drop, Nat.add_sub_cancel' after] at nothing
    rw [formAt?_eq, nothing, Option.map_none]
  rcases Reader.first?_cases (Reader.isLocal_all placeholders) (text.drop pos) pos with
    ⟨missing, nothing⟩ | ⟨skip, reading, found, read, passed⟩
  · exact Or.inl ⟨missing, fun later after => refused later after (nothing _)⟩
  · rw [List.drop_drop] at read
    have here : formAt? placeholders text (pos + skip) = some (reading.moved (pos + skip)) := by
      rw [formAt?_eq, read, Option.map_some]
    have start := (formAt?_bounds here).1
    refine Or.inr ⟨reading.moved (pos + skip), found, by omega, by rw [start, here], ?_⟩
    intro between after before
    exact refused between after (passed (between - pos) (by omega))

/-- The spans of the pieces of the rest of a text are taken leftmost first.

The induction is on what is left of the text; each form that is taken leaves less. -/
theorem leftmostFirst_placed (placeholders : Bool) (text : Text) (pos : Nat) :
    LeftmostFirst placeholders text pos
      (Piece.placed pos (Piece.cut (Reader.all placeholders) (text.drop pos))) := by
  induction left : text.length - pos using Nat.strong_induction_on generalizing pos with
  | _ bound inductionHypothesis =>
    rw [Reader.placed_cut_eq (Reader.isLocal_all placeholders)]
    rcases find_cases placeholders text pos with
      ⟨missing, nothing⟩ | ⟨span, found, after, starts, passed⟩
    · rw [Reader.find] at missing
      rw [missing]
      exact .done nothing
    · rw [Reader.find] at found
      obtain ⟨_, inhabited, inside⟩ := formAt?_bounds starts
      simp only [found]
      rw [List.drop_drop, Nat.add_sub_cancel' (by omega : pos ≤ span.stop)]
      exact .take after passed starts
        (inductionHypothesis (text.length - span.stop) (by omega) span.stop rfl)

/-- Only one list of spans is taken leftmost first. -/
theorem LeftmostFirst.unique {pos : Nat} {first second : List Span}
    (taken : LeftmostFirst placeholders text pos first)
    (other : LeftmostFirst placeholders text pos second) : first = second := by
  induction taken generalizing second with
  | done nothing =>
    cases other with
    | done => rfl
    | take after _ starts _ => simp [nothing _ after] at starts
  | @take pos start span rest after passed starts later inductionHypothesis =>
    cases other with
    | done nothing => simp [nothing start after] at starts
    | @take _ otherStart otherSpan _ otherAfter otherPassed otherStarts otherLater =>
      -- of two first positions neither can stand before the other
      have same : start = otherStart := by
        rcases Nat.lt_trichotomy start otherStart with before | same | behind
        · simp [otherPassed start after before] at starts
        · exact same
        · simp [passed otherStart otherAfter behind] at otherStarts
      subst same
      rw [starts, Option.some.injEq] at otherStarts
      subst otherStarts
      rw [inductionHypothesis otherLater]

/-- What is taken starts at or after the position it was asked from. -/
theorem LeftmostFirst.start_le {pos : Nat} {spans : List Span}
    (taken : LeftmostFirst placeholders text pos spans) : ∀ span ∈ spans, pos ≤ span.start := by
  induction taken with
  | done => simp
  | take after _ starts _ inductionHypothesis =>
    obtain ⟨start, inhabited, _⟩ := formAt?_bounds starts
    intro span member
    rcases List.mem_cons.mp member with rfl | inRest
    · omega
    · have behind := inductionHypothesis span inRest
      omega

/-- What is taken stands in order and apart. -/
theorem LeftmostFirst.pairwise {pos : Nat} {spans : List Span}
    (taken : LeftmostFirst placeholders text pos spans) :
    spans.Pairwise fun first second => first.stop ≤ second.start := by
  induction taken with
  | done => exact .nil
  | take _ _ _ later inductionHypothesis => exact .cons later.start_le inductionHypothesis

/-- Every form from the first position on starts in one of the spans that are taken. -/
theorem LeftmostFirst.covers {pos : Nat} {spans : List Span}
    (taken : LeftmostFirst placeholders text pos spans) (asked : Nat) (after : pos ≤ asked)
    (starts : formAt? placeholders text asked ≠ none) :
    ∃ span ∈ spans, span.start ≤ asked ∧ asked < span.stop := by
  induction taken with
  | done nothing => exact absurd (nothing asked after) starts
  | @take pos start span rest _ passed taken _ inductionHypothesis =>
    have begins := (formAt?_bounds taken).1
    by_cases before : asked < start
    · exact absurd (passed asked after before) starts
    · by_cases inside : asked < span.stop
      · exact ⟨span, List.mem_cons_self, by omega, inside⟩
      · obtain ⟨found, member, covered⟩ := inductionHypothesis (by omega)
        exact ⟨found, List.mem_cons_of_mem _ member, covered⟩

/-- The walk yields exactly the list of spans that is taken by asking at one position after the
    other, from the first position on. The spans stand in order and apart, and no form is missed:
    each starts in a span that is yielded.

    Proof: the forms among the pieces of a text are taken leftmost first, by induction on the
    pieces, and asking leaves no choice at any step. -/
theorem ofText_leftmostFirst (placeholders : Bool) (text : Text) :
    (∀ spans, LeftmostFirst placeholders text 0 spans ↔ spans = ofText text placeholders) ∧
      (ofText text placeholders).Pairwise (fun first second => first.stop ≤ second.start) ∧
      ∀ pos, formAt? placeholders text pos ≠ none →
        ∃ span ∈ ofText text placeholders, span.start ≤ pos ∧ pos < span.stop := by
  have taken : LeftmostFirst placeholders text 0 (ofText text placeholders) := by
    rw [ofText_eq_placed]
    exact leftmostFirst_placed placeholders text 0
  refine ⟨?_, taken.pairwise, fun pos starts => taken.covers pos (Nat.zero_le pos) starts⟩
  intro spans
  constructor
  · intro other
    exact other.unique taken
  · rintro rfl
    exact taken

end Tokens

end HiddenContent
