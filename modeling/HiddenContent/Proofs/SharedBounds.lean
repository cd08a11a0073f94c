import HiddenContent.Proofs.Memory

/-!
# One memory for many queries

The memories of one text may be asked anything, at any positions and in any order: for the next
closing brace or line feed, for the end of a blob, or for the next directive or token. What was
asked before leaves them sound, so each answer is the one that needs no memory, and in particular
the one that fresh memories give.

The next position of a character is stated on its own, by the characters that stand in the text:
nothing is passed over, and where the character stands no more it is the length of the text, also
for a position beyond the end.
-/

namespace HiddenContent

/-- The next position of a character from `pos` on, or the length of the text when it does not stand
    there. -/
structure IsNext (c : Char) (text : Text) (pos found : Nat) : Prop where
  passed : ∀ between, pos ≤ between → between < found → text[between]? ≠ some c
  stands : pos ≤ found ∧ text[found]? = some c ∨
    found = text.length ∧ ∀ later, pos ≤ later → text[later]? ≠ some c

namespace NextIndex

/-- A run of other characters ends at the character or with the text. -/
theorem getElem?_length_takeWhile (c : Char) (text : Text) :
    (∀ index, index < (text.takeWhile (· != c)).length → text[index]? ≠ some c) ∧
      (text[(text.takeWhile (· != c)).length]? = some c ∨
        (text.takeWhile (· != c)).length = text.length) := by
  induction text with
  | nil => simp
  | cons d rest inductionHypothesis =>
    obtain ⟨passed, ends⟩ := inductionHypothesis
    by_cases same : d = c
    · simp [same]
    · simp only [List.takeWhile_cons, bne_iff_ne, ne_eq, same, not_false_eq_true, if_true,
        List.length_cons, List.getElem?_cons_succ, Nat.add_right_cancel_iff]
      refine ⟨?_, ends⟩
      intro index inside
      cases index with
      | zero => simpa using same
      | succ index => simpa using passed index (by omega)

/-- A search finds the next position. -/
theorem isNext_search (c : Char) (text : Text) (pos : Nat) :
    IsNext c text pos (search c text pos) := by
  obtain ⟨passed, ends⟩ := getElem?_length_takeWhile c (text.drop pos)
  simp only [List.getElem?_drop] at passed ends
  rw [List.length_drop] at ends
  refine ⟨?_, ?_⟩
  · intro between after before
    have inside := passed (between - pos) (by rw [search] at before; omega)
    rwa [Nat.add_sub_cancel' after] at inside
  · rcases ends with stands | absent
    · have inText := (List.getElem?_eq_some_iff.mp stands).1
      refine Or.inl ?_
      rw [search, Nat.min_eq_right (by omega)]
      exact ⟨by omega, stands⟩
    · refine Or.inr ⟨by rw [search, absent]; omega, ?_⟩
      intro later after present
      have inText := (List.getElem?_eq_some_iff.mp present).1
      have inside := passed (later - pos) (by omega)
      rw [Nat.add_sub_cancel' after] at inside
      exact inside present

end NextIndex

namespace Bounds

/-- What the memories of a text can be asked, at any position. -/
inductive Query where
  | close (pos : Nat)
  | newline (pos : Nat)
  | blobEnd (multiline : Bool) (pos : Nat)
  | inline (pos : Nat)
  | placeholder (pos : Nat)

/-- What a query is answered with. -/
inductive Answer where
  | position (found : Nat)
  | stop (found : Option Nat)
  | span (found : Option Span)
deriving DecidableEq

/-- Answer one query, with the memories after it. -/
def ask (bounds : Bounds) : Query → Answer × Bounds
  | .close pos => ((bounds.closeAt pos).map .position id)
  | .newline pos => ((bounds.newlineAt pos).map .position id)
  | .blobEnd multiline pos => ((bounds.blobEnd multiline pos).map .stop id)
  | .inline pos => ((bounds.inlineFrom pos).map .span id)
  | .placeholder pos => ((bounds.placeholderFrom pos).map .span id)

/-- Answer several queries, each with the memories that the one before left. -/
def askAll (bounds : Bounds) : List Query → List Answer × Bounds
  | [] => ([], bounds)
  | query :: rest =>
    let (answer, next) := bounds.ask query
    let (later, last) := askAll next rest
    (answer :: later, last)

/-- The answer to a query without any memory. -/
def Query.answer (text : Text) : Query → Answer
  | close pos => .position (NextIndex.search '}' text pos)
  | newline pos => .position (NextIndex.search '\n' text pos)
  | blobEnd multiline pos => .stop (blobEndAt text multiline pos)
  | inline pos => .span (Span.inlineFrom? text pos)
  | placeholder pos => .span (Span.placeholderFrom? text pos)

variable {text : Text} {bounds : Bounds}

/-- Sound memories give the answer that needs none, and stay sound. -/
theorem ask_sound (sound : bounds.Sound text) (query : Query) :
    (bounds.ask query).1 = query.answer text ∧ (bounds.ask query).2.Sound text := by
  cases query with
  | close pos =>
    obtain ⟨answer, after⟩ := closeAt_sound sound pos
    exact ⟨congrArg Answer.position answer, after⟩
  | newline pos =>
    obtain ⟨answer, after⟩ := newlineAt_sound sound pos
    exact ⟨congrArg Answer.position answer, after⟩
  | blobEnd multiline pos =>
    obtain ⟨answer, after⟩ := blobEnd_sound sound multiline pos
    exact ⟨congrArg Answer.stop answer, after⟩
  | inline pos =>
    obtain ⟨answer, after⟩ := inlineFrom_sound sound pos
    exact ⟨congrArg Answer.span answer, after⟩
  | placeholder pos =>
    obtain ⟨answer, after⟩ := placeholderFrom_sound sound pos
    exact ⟨congrArg Answer.span answer, after⟩

/-- So do all answers of a history of queries. -/
theorem askAll_sound (sound : bounds.Sound text) (queries : List Query) :
    (bounds.askAll queries).1 = queries.map (Query.answer text) ∧
      (bounds.askAll queries).2.Sound text := by
  induction queries generalizing bounds with
  | nil => exact ⟨rfl, sound⟩
  | cons query rest inductionHypothesis =>
    obtain ⟨answer, next⟩ := ask_sound sound query
    obtain ⟨later, last⟩ := inductionHypothesis next
    exact ⟨by simp only [askAll, answer, later, List.map_cons], last⟩

/-- Memories that are shared by any sequence of queries answer each of them as fresh memories do.
    These answers are those of the searches that have no memory, and a search for a character finds
    its next position.

    Proof: each query is answered as by a search without memory and leaves the memories sound, so an
    induction over the queries gives the run. -/
theorem askAll_eq_fresh (text : Text) (queries : List Query) :
    ((ofText text).askAll queries).1 = queries.map (fun query => ((ofText text).ask query).1) ∧
      (∀ query, ((ofText text).ask query).1 = query.answer text) ∧
      ∀ c pos, IsNext c text pos (NextIndex.search c text pos) := by
  have fresh := sound_ofText text
  have alone : ∀ query, ((ofText text).ask query).1 = Query.answer text query :=
    fun query => (ask_sound fresh query).1
  refine ⟨?_, alone, fun c pos => NextIndex.isNext_search c text pos⟩
  simp only [alone]
  exact (askAll_sound fresh queries).1

/-- Positions that go back, that lie beyond the end, and that ask for what is not there. -/
example :
    ((ofText "a\x7bb\nc\x7d".toList).askAll
      [.close 3, .close 9, .close 1, .newline 5, .newline 2, .blobEnd false 1,
        .blobEnd true 1]).1 =
      [.position 5, .position 6, .position 5, .position 6, .position 3, .stop none,
        .stop (some 6)] := by decide

end Bounds

end HiddenContent
