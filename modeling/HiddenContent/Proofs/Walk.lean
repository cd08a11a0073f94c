import HiddenContent.Proofs.Memory
import HiddenContent.Proofs.Pieces

/-!
# The walk over a text yields its pieces

Two searches run ahead of the walk and are renewed only when the walk has passed what they found.
`find` is the search of one reader from a position, without a memory. What it finds stays the
answer until the walk passes it, so a search that runs ahead always holds the answer for the
present position. The nearest of both answers is the next form of the text, and the walk yields the
spans of the pieces.
-/

namespace HiddenContent

namespace Reader

/-- The first span that a reader finds in the text that begins at `pos`. -/
def first? (reader : Reader) : Text → Nat → Option Span
  | [], _ => none
  | c :: rest, pos =>
    match reader (c :: rest) with
    | some reading => some (reading.moved pos)
    | none => first? reader rest (pos + 1)

/-- The first span that a reader finds at a position or after it. -/
def find (reader : Reader) (text : Text) (pos : Nat) : Option Span :=
  reader.first? (text.drop pos) pos

/-- The search for a directive is the search of its reader. -/
theorem inlineSearch?_eq (text : Text) (pos : Nat) :
    Span.inlineSearch? text pos = (all false).first? text pos := by
  induction text generalizing pos with
  | nil => rfl
  | cons c rest inductionHypothesis =>
    have here := Tokens.here?_eq_moved false (c :: rest) pos
    simp only [Tokens.here?, Bool.false_eq_true, if_false] at here
    simp only [Span.inlineSearch?, first?]
    rw [inductionHypothesis]
    cases read : all false (c :: rest) with
    | none =>
      cases directive : Span.inlineHere? (c :: rest) pos with
      | none => rfl
      | some found => simp [directive, read] at here
    | some reading =>
      cases directive : Span.inlineHere? (c :: rest) pos with
      | none => simp [directive, read] at here
      | some found => simpa [directive, read] using here

/-- The search for a token is the search of its reader. -/
theorem placeholderSearch?_eq (text : Text) (pos : Nat) :
    Span.placeholderSearch? text pos = tokens.first? text pos := by
  induction text generalizing pos with
  | nil => rfl
  | cons c rest inductionHypothesis =>
    simp only [Span.placeholderSearch?, first?]
    rw [Span.placeholderHere?_eq_moved, inductionHypothesis]
    rw [tokens]
    cases Span.placeholderHere? (c :: rest) 0 with
    | none => rfl
    | some reading => rfl

/-- The next directive from a position on is what its reader finds there. -/
theorem inlineFrom?_eq (text : Text) (pos : Nat) :
    Span.inlineFrom? text pos = (all false).find text pos := inlineSearch?_eq _ pos

/-- The next token from a position on is what its reader finds there. -/
theorem placeholderFrom?_eq (text : Text) (pos : Nat) :
    Span.placeholderFrom? text pos = tokens.find text pos := placeholderSearch?_eq _ pos

/-- A found span lies in the text that was searched, and is not empty. -/
theorem first?_bounds {reader : Reader} (isLocal : reader.IsLocal) (text : Text) (pos : Nat)
    (span : Span) (found : reader.first? text pos = some span) :
    pos ≤ span.start ∧ span.start < span.stop ∧ span.stop ≤ pos + text.length := by
  induction text generalizing pos with
  | nil => simp [first?] at found
  | cons c rest inductionHypothesis =>
    cases read : reader (c :: rest) with
    | none =>
      simp only [first?, read] at found
      obtain ⟨after, inhabited, inside⟩ := inductionHypothesis (pos + 1) found
      simp only [List.length_cons]
      omega
    | some reading =>
      simp only [first?, read, Option.some.injEq] at found
      subst found
      obtain ⟨written, more, whole, reads⟩ := isLocal (c :: rest) reading read
      have inhabited := List.length_pos_iff.mpr reads.inhabited
      have size := congrArg List.length whole
      rw [List.length_append] at size
      simp only [Span.moved, reads.start, reads.stop]
      omega

/-- The pieces of a text begin, after plain characters, with what is found first. -/
theorem placed_cut_eq {reader : Reader} (isLocal : reader.IsLocal) (text : Text) (pos : Nat) :
    Piece.placed pos (Piece.cut reader text) =
      match reader.first? text pos with
      | none => []
      | some span =>
        span :: Piece.placed span.stop (Piece.cut reader (text.drop (span.stop - pos))) := by
  induction text generalizing pos with
  | nil => rfl
  | cons c rest inductionHypothesis =>
    cases read : reader (c :: rest) with
    | none =>
      rw [Piece.cut_of_refused read, Piece.placed, inductionHypothesis]
      simp only [first?, read]
      cases found : reader.first? rest (pos + 1) with
      | none => rfl
      | some span =>
        have bounds := first?_bounds isLocal rest (pos + 1) span found
        have later : span.stop - pos = span.stop - (pos + 1) + 1 := by omega
        simp only [later, List.drop_succ_cons]
    | some reading =>
      obtain ⟨written, more, whole, reads⟩ := isLocal (c :: rest) reading read
      simp only [first?, read]
      rw [whole, Piece.cut_of_reads reads, Piece.placed]
      have stop : (reading.moved pos).stop = pos + written.length := by
        simp [Span.moved, reads.stop]
      rw [stop, Nat.add_sub_cancel_left, List.drop_left]

/-- A reading moved to a position starts there. -/
theorem IsLocal.start_moved {reader : Reader} (isLocal : reader.IsLocal) {text : Text}
    {reading : Span} (read : reader text = some reading) (pos : Nat) :
    (reading.moved pos).start = pos := by
  obtain ⟨_, _, _, reads⟩ := isLocal text reading read
  simp [Span.moved, reads.start]

/-- A directive is nearest when no token starts before it. -/
theorem nearest_eq_directive (directive : Span) (placeholder : Option Span)
    (first : ∀ token ∈ placeholder, directive.start ≤ token.start) :
    Tokens.nearest (some directive) placeholder = some directive := by
  cases placeholder with
  | none => rfl
  | some token =>
    have notBefore : ¬token.start < directive.start := Nat.not_lt.mpr (first token rfl)
    rw [Tokens.nearest, if_neg notBefore]

/-- A token is nearest when it starts before every directive. -/
theorem nearest_eq_placeholder (placeholder : Span) (directive : Option Span)
    (first : ∀ other ∈ directive, placeholder.start < other.start) :
    Tokens.nearest directive (some placeholder) = some placeholder := by
  cases directive with
  | none => rfl
  | some other => rw [Tokens.nearest, if_pos (first other rfl)]

/-- Of what both readers find, the nearest is what the reader of both finds. -/
theorem first?_all (placeholders : Bool) (text : Text) (pos : Nat) :
    (all placeholders).first? text pos =
      Tokens.nearest ((all false).first? text pos)
        (if placeholders then tokens.first? text pos else none) := by
  induction text generalizing pos with
  | nil => cases placeholders <;> rfl
  | cons c rest inductionHypothesis =>
    have inlineFirst : all false (c :: rest) = Span.inlineHere? (c :: rest) 0 := by
      rw [all, Tokens.here?]
      cases Span.inlineHere? (c :: rest) 0 <;> rfl
    have either : all placeholders (c :: rest) =
        match all false (c :: rest) with
        | some reading => some reading
        | none => if placeholders then tokens (c :: rest) else none := by
      rw [inlineFirst]
      rfl
    cases directive : all false (c :: rest) with
    | some reading =>
      have here : (all false).first? (c :: rest) pos = some (reading.moved pos) := by
        simp only [first?, directive]
      rw [here, nearest_eq_directive]
      · simp only [first?, either, directive]
      · intro token member
        rw [(isLocal_all false).start_moved directive pos]
        cases placeholders with
        | false => simp at member
        | true => exact (first?_bounds isLocal_tokens (c :: rest) pos token member).1
    | none =>
      cases placeholders with
      | false => simpa [first?, directive] using inductionHypothesis (pos + 1)
      | true =>
        cases token : tokens (c :: rest) with
        | none => simpa [first?, either, directive, token] using inductionHypothesis (pos + 1)
        | some reading =>
          have here : tokens.first? (c :: rest) pos = some (reading.moved pos) := by
            simp only [first?, token]
          rw [if_pos rfl, here, nearest_eq_placeholder]
          · simp [first?, either, directive, token]
          · intro other member
            simp only [first?, directive] at member
            have after := (first?_bounds (isLocal_all false) rest (pos + 1) other member).1
            rw [isLocal_tokens.start_moved token pos]
            omega

/-- An answer stays until it is passed. -/
theorem find_eq_of_le {reader : Reader} (text : Text) (pos later : Nat) (after : pos ≤ later)
    (ahead : ∀ span ∈ reader.find text pos, later ≤ span.start)
    (isLocal : reader.IsLocal) : reader.find text later = reader.find text pos := by
  induction steps : later - pos generalizing pos with
  | zero =>
    have same : later = pos := by omega
    rw [same]
  | succ steps inductionHypothesis =>
    by_cases inside : pos < text.length
    · have here : text.drop pos = text[pos] :: text.drop (pos + 1) :=
        List.drop_eq_getElem_cons inside
      cases read : reader (text[pos] :: text.drop (pos + 1)) with
      | some reading =>
        have found : reader.find text pos = some (reading.moved pos) := by
          simp only [find, here, first?, read]
        have start := isLocal.start_moved read pos
        have passed := ahead (reading.moved pos) (by rw [found]; rfl)
        omega
      | none =>
        have next : reader.find text pos = reader.find text (pos + 1) := by
          simp only [find, here, first?, read]
        rw [next] at ahead ⊢
        exact inductionHypothesis (pos + 1) (by omega) ahead (by omega)
    · have beyond : text.drop pos = [] := List.drop_eq_nil_of_le (by omega)
      have furtherBeyond : text.drop later = [] := List.drop_eq_nil_of_le (by omega)
      simp [find, beyond, furtherBeyond, first?]

end Reader

namespace Lookahead

/-- The search that runs ahead holds the answer for a position, and a sound memory. -/
structure Ready (text : Text) (answer : Option Span) (ahead : Lookahead) : Prop where
  next_eq : ahead.next = answer
  sound : ahead.bounds.Sound text

/-- Renewing the search makes it ready for a later position. -/
theorem refresh_ready {reader : Reader} (isLocal : reader.IsLocal) (text : Text)
    (search : Bounds → Nat → Option Span × Bounds)
    (searches : ∀ {bounds : Bounds} (_ : bounds.Sound text) (pos : Nat),
      (search bounds pos).1 = reader.find text pos ∧ (search bounds pos).2.Sound text)
    (ahead : Lookahead) (pos later : Nat) (after : pos ≤ later)
    (ready : Ready text (reader.find text pos) ahead) :
    Ready text (reader.find text later) (refresh search ahead later) := by
  rw [refresh]
  split
  · rename_i nothing
    have absent : reader.find text pos = none := by rw [← ready.next_eq, nothing]
    have same := reader.find_eq_of_le text pos later after (by simp [absent]) isLocal
    exact ⟨by rw [same, ready.next_eq], ready.sound⟩
  · rename_i span found
    split
    · exact ⟨(searches ready.sound later).1, (searches ready.sound later).2⟩
    · rename_i future
      have answer : reader.find text pos = some span := by rw [← ready.next_eq, found]
      have same := reader.find_eq_of_le text pos later after
        (by
          intro other member
          rw [answer, Option.mem_some_iff] at member
          subst member
          omega)
        isLocal
      exact ⟨by rw [same, ready.next_eq], ready.sound⟩

end Lookahead

namespace Tokens

/-- What the search for tokens holds, if tokens are wanted. -/
def wanted (placeholders : Bool) (text : Text) (pos : Nat) : Option Span :=
  if placeholders then Reader.tokens.find text pos else none

/-- From any position, with both searches ready, the walk yields the pieces of the rest.

The induction is on what is left of the text; each form that is taken leaves less. -/
theorem walk_eq (placeholders : Bool) (text : Text) (pos : Nat)
    (directive placeholder : Lookahead)
    (directiveReady : directive.Ready text ((Reader.all false).find text pos))
    (placeholderReady : placeholder.Ready text (wanted placeholders text pos)) :
    walk text.length pos directive placeholder =
      Piece.placed pos (Piece.cut (Reader.all placeholders) (text.drop pos)) := by
  induction left : text.length - pos using Nat.strong_induction_on
    generalizing pos directive placeholder with
  | _ bound inductionHypothesis =>
    have leftmost : nearest directive.next placeholder.next =
        (Reader.all placeholders).first? (text.drop pos) pos := by
      rw [Reader.first?_all, directiveReady.next_eq, placeholderReady.next_eq]
      rfl
    rw [walk, leftmost, Reader.placed_cut_eq (Reader.isLocal_all placeholders)]
    cases found : (Reader.all placeholders).first? (text.drop pos) pos with
    | none => rfl
    | some span =>
      obtain ⟨after, inhabited, inside⟩ :=
        Reader.first?_bounds (Reader.isLocal_all placeholders) _ pos span found
      rw [List.length_drop] at inside
      have progress : pos < span.stop ∧ span.stop ≤ text.length := by omega
      simp only [progress, and_self, dite_true, List.cons.injEq, true_and]
      rw [List.drop_drop, Nat.add_sub_cancel' (by omega : pos ≤ span.stop)]
      apply inductionHypothesis (text.length - span.stop) (by omega) span.stop _ _ _ _ rfl
      · exact Lookahead.refresh_ready (Reader.isLocal_all false) text Bounds.inlineFrom
          (fun sound pos => by
            rw [← Reader.inlineFrom?_eq]
            exact Bounds.inlineFrom_sound sound pos)
          directive pos span.stop (by omega) directiveReady
      · cases placeholders with
        | true =>
          exact Lookahead.refresh_ready Reader.isLocal_tokens text Bounds.placeholderFrom
            (fun sound pos => by
              rw [← Reader.placeholderFrom?_eq]
              exact Bounds.placeholderFrom_sound sound pos)
            placeholder pos span.stop (by omega) placeholderReady
        | false =>
          have nothing : placeholder.next = none := placeholderReady.next_eq
          exact ⟨by simp [Lookahead.refresh, nothing, wanted],
            by simpa [Lookahead.refresh, nothing] using placeholderReady.sound⟩

/-- The spans of a text are those of its pieces. -/
theorem ofText_eq_placed (text : Text) (placeholders : Bool) :
    ofText text placeholders =
      Piece.placed 0 (Piece.cut (Reader.all placeholders) text) := by
  have fresh := Bounds.sound_ofText text
  obtain ⟨directive, directiveSound⟩ := Bounds.inlineFrom_sound fresh 0
  obtain ⟨placeholder, placeholderSound⟩ := Bounds.placeholderFrom_sound fresh 0
  rw [Reader.inlineFrom?_eq] at directive
  rw [Reader.placeholderFrom?_eq] at placeholder
  have walked := walk_eq placeholders text 0
    ⟨((Bounds.ofText text).inlineFrom 0).1, ((Bounds.ofText text).inlineFrom 0).2⟩
  cases placeholders with
  | true =>
    exact walked ⟨((Bounds.ofText text).placeholderFrom 0).1,
      ((Bounds.ofText text).placeholderFrom 0).2⟩ ⟨directive, directiveSound⟩
      ⟨placeholder, placeholderSound⟩
  | false =>
    exact walked ⟨none, Bounds.ofText text⟩ ⟨directive, directiveSound⟩ ⟨rfl, fresh⟩

/-- From any position, the walk over tokens alone yields the pieces of the rest. -/
theorem placeholderWalk_eq (text : Text) (pos : Nat) (bounds : Bounds)
    (sound : bounds.Sound text) :
    placeholderWalk text.length pos bounds =
      Piece.placed pos (Piece.cut Reader.tokens (text.drop pos)) := by
  induction left : text.length - pos using Nat.strong_induction_on
    generalizing pos bounds with
  | _ bound inductionHypothesis =>
    obtain ⟨answer, kept⟩ := Bounds.placeholderFrom_sound sound pos
    rw [Reader.placeholderFrom?_eq] at answer
    rw [placeholderWalk, Reader.placed_cut_eq Reader.isLocal_tokens]
    cases searched : bounds.placeholderFrom pos with
    | mk next after =>
      rw [searched] at answer kept
      simp only [Reader.find] at answer
      rw [← answer]
      cases next with
      | none => rfl
      | some span =>
        obtain ⟨ahead, inhabited, inside⟩ :=
          Reader.first?_bounds Reader.isLocal_tokens _ pos span answer.symm
        rw [List.length_drop] at inside
        have progress : pos < span.stop ∧ span.stop ≤ text.length := by omega
        simp only [progress, and_self, dite_true, List.cons.injEq, true_and]
        rw [List.drop_drop, Nat.add_sub_cancel' (by omega : pos ≤ span.stop)]
        exact inductionHypothesis (text.length - span.stop) (by omega) span.stop after kept rfl

/-- The tokens of a text are the spans of its pieces for the reader of tokens. -/
theorem placeholders_eq_placed (text : Text) :
    placeholders text = Piece.placed 0 (Piece.cut Reader.tokens text) :=
  placeholderWalk_eq text 0 (Bounds.ofText text) (Bounds.sound_ofText text)

end Tokens

end HiddenContent
