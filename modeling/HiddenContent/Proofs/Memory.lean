import HiddenContent.Proofs.Forms
import HiddenContent.Bounds

/-!
# A memory never changes an answer

A `NextIndex` answers from its memory inside the remembered range. Soundness says that every
question in that range has the remembered answer. A fresh memory is sound, every question keeps it
so, and therefore each search that carries a memory answers as the search without one. The
positions asked for may come in any order.
-/

namespace HiddenContent

namespace NextIndex

/-- The remembered answer is right in the whole remembered range. -/
def Sound (c : Char) (text : Text) (remembered : NextIndex) : Prop :=
  ∀ pos, remembered.start ≤ pos → pos ≤ remembered.found →
    search c text pos = remembered.found

/-- Dropping a part of a run shortens the run by that part. -/
theorem length_takeWhile_drop (belongs : Char → Bool) (text : Text) (skip : Nat)
    (inside : skip ≤ (text.takeWhile belongs).length) :
    ((text.drop skip).takeWhile belongs).length = (text.takeWhile belongs).length - skip := by
  induction text generalizing skip with
  | nil => simp
  | cons c rest inductionHypothesis =>
    cases skip with
    | zero => simp
    | succ skip =>
      cases inRun : belongs c with
      | false => simp [inRun] at inside
      | true =>
        simp only [List.takeWhile_cons, inRun, if_true, List.length_cons] at inside
        rw [List.drop_succ_cons, inductionHypothesis skip (by omega)]
        simp [inRun]

/-- A search inside the range of another finds the same place. -/
theorem search_eq_of_range (c : Char) (text : Text) (pos later : Nat) (after : pos ≤ later)
    (before : later ≤ search c text pos) : search c text later = search c text pos := by
  simp only [search] at before ⊢
  have run : ((text.drop pos).takeWhile (· != c)).length ≤ (text.drop pos).length :=
    (List.takeWhile_sublist _).length_le
  rw [List.length_drop] at run
  have skipped : later - pos ≤ ((text.drop pos).takeWhile (· != c)).length := by omega
  have shorter := length_takeWhile_drop (· != c) (text.drop pos) (later - pos) skipped
  rw [List.drop_drop, Nat.add_sub_cancel' after] at shorter
  rw [shorter]
  omega

/-- A fresh memory is sound: it remembers no place. -/
theorem sound_fresh (c : Char) (text : Text) : Sound c text {} := by
  intro pos after before
  have start : 1 ≤ pos := after
  have found : pos ≤ 0 := before
  omega

/-- A question gets the answer of a search and leaves a sound memory. -/
theorem ask_sound (c : Char) (text : Text) (remembered : NextIndex) (pos : Nat)
    (sound : Sound c text remembered) :
    (ask c text remembered pos).1 = search c text pos ∧
      Sound c text (ask c text remembered pos).2 := by
  rw [ask]
  split
  · rename_i inside
    exact ⟨(sound pos inside.1 inside.2).symm, sound⟩
  · exact ⟨rfl, fun later after before => search_eq_of_range c text pos later after before⟩

end NextIndex

namespace Bounds

/-- The memories of both characters are sound for a text. -/
structure Sound (text : Text) (bounds : Bounds) : Prop where
  text_eq : bounds.text = text
  close : bounds.close.Sound '}' text
  newline : bounds.newline.Sound '\n' text

/-- The memories are sound when a text is first asked about. -/
theorem sound_ofText (text : Text) : (ofText text).Sound text where
  text_eq := rfl
  close := NextIndex.sound_fresh '}' text
  newline := NextIndex.sound_fresh '\n' text

/-- The memory of closing braces answers as a search does, and stays sound. -/
theorem closeAt_sound {text : Text} {bounds : Bounds} (sound : bounds.Sound text) (pos : Nat) :
    (bounds.closeAt pos).1 = NextIndex.search '}' text pos ∧
      (bounds.closeAt pos).2.Sound text := by
  obtain ⟨rfl, close, newline⟩ := sound
  have asked := NextIndex.ask_sound '}' bounds.text bounds.close pos close
  exact ⟨asked.1, ⟨rfl, asked.2, newline⟩⟩

/-- The memory of line feeds answers as a search does, and stays sound. -/
theorem newlineAt_sound {text : Text} {bounds : Bounds} (sound : bounds.Sound text)
    (pos : Nat) :
    (bounds.newlineAt pos).1 = NextIndex.search '\n' text pos ∧
      (bounds.newlineAt pos).2.Sound text := by
  obtain ⟨rfl, close, newline⟩ := sound
  have asked := NextIndex.ask_sound '\n' bounds.text bounds.newline pos newline
  exact ⟨asked.1, ⟨rfl, close, asked.2⟩⟩

/-- The end of a blob, found by searches without a memory. -/
def blobEndAt (text : Text) (multiline : Bool) (pos : Nat) : Option Nat :=
  let close := NextIndex.search '}' text pos
  if text.length ≤ close then none
  else if multiline then some (close + 1)
  else if NextIndex.search '\n' text pos < close then none
  else some (close + 1)

/-- With memories, a blob ends where it ends without them. -/
theorem blobEnd_sound {text : Text} {bounds : Bounds} (sound : bounds.Sound text)
    (multiline : Bool) (pos : Nat) :
    (bounds.blobEnd multiline pos).1 = blobEndAt text multiline pos ∧
      (bounds.blobEnd multiline pos).2.Sound text := by
  obtain ⟨close, afterClose⟩ := closeAt_sound sound pos
  obtain ⟨newline, afterNewline⟩ := newlineAt_sound afterClose pos
  have size : (bounds.closeAt pos).2.size = text.length := by
    rw [(bounds.closeAt pos).2.size_eq, afterClose.text_eq]
  simp only [blobEnd, blobEndAt, size, close]
  split
  · exact ⟨rfl, afterClose⟩
  · split
    · exact ⟨rfl, afterClose⟩
    · rw [newline]
      split
      · exact ⟨rfl, afterNewline⟩
      · exact ⟨rfl, afterNewline⟩

/-- A character stands in a run exactly when the run up to it is shorter. -/
theorem length_takeWhile_lt_iff (first second : Char) (different : first ≠ second)
    (text : Text) :
    (text.takeWhile (· != first)).length < (text.takeWhile (· != second)).length ↔
      first ∈ text.takeWhile (· != second) := by
  induction text with
  | nil => simp
  | cons c rest inductionHypothesis =>
    by_cases isSecond : c = second
    · subst isSecond
      simp
    · by_cases isFirst : c = first
      · subst isFirst
        simp [isSecond]
      · simp [isSecond, isFirst, inductionHypothesis, Ne.symm isFirst]

/-- The remembered bounds measure the blob in front of the rest of the text. -/
theorem blobEndAt_eq (text rest : Text) (multiline : Bool) (pos : Nat)
    (stands : text.drop pos = '{' :: rest) :
    (blobEndAt text multiline pos).map (· - pos) = Span.blobLength? multiline ('{' :: rest) := by
  have size : text.length = pos + 1 + rest.length := by
    have whole := congrArg List.length stands
    rw [List.length_drop, List.length_cons] at whole
    omega
  have inside : (rest.takeWhile (· != '}')).length ≤ rest.length :=
    (List.takeWhile_sublist _).length_le
  have close : NextIndex.search '}' text pos = pos + 1 + (rest.takeWhile (· != '}')).length := by
    simp only [NextIndex.search, stands]
    simp
    omega
  have newline : NextIndex.search '\n' text pos =
      pos + 1 + (rest.takeWhile (· != '\n')).length := by
    have run : (rest.takeWhile (· != '\n')).length ≤ rest.length :=
      (List.takeWhile_sublist _).length_le
    simp only [NextIndex.search, stands]
    simp
    omega
  have line := length_takeWhile_lt_iff '\n' '}' (by decide) rest
  have length : pos + 1 + (rest.takeWhile (· != '}')).length + 1 - pos =
      (rest.takeWhile (· != '}')).length + 2 := by omega
  have closes : text.length ≤ pos + 1 + (rest.takeWhile (· != '}')).length ↔
      (rest.takeWhile (· != '}')).length = rest.length := by omega
  have stops : pos + 1 + (rest.takeWhile (· != '\n')).length <
      pos + 1 + (rest.takeWhile (· != '}')).length ↔
      '\n' ∈ rest.takeWhile (· != '}') := by
    rw [← line]
    omega
  simp only [blobEndAt, close, newline, Span.blobLength?, closes, stops]
  split
  · rfl
  · cases multiline with
    | true => simp [length]
    | false =>
      by_cases broken : '\n' ∈ rest.takeWhile (· != '}')
      · simp [broken]
      · simp [broken, length]

/-- With memories, a blob is as long as it is without them. -/
theorem blobLength_sound {text rest : Text} {bounds : Bounds} (sound : bounds.Sound text)
    (multiline : Bool) (pos : Nat) (stands : text.drop pos = rest) :
    (bounds.blobLength multiline rest pos).1 = Span.blobLength? multiline rest ∧
      (bounds.blobLength multiline rest pos).2.Sound text := by
  simp only [blobLength]
  split
  · rename_i more
    obtain ⟨answer, after⟩ := blobEnd_sound sound multiline pos
    simp only [answer]
    exact ⟨blobEndAt_eq text more multiline pos stands, after⟩
  · rename_i unopened
    refine ⟨?_, sound⟩
    unfold Span.blobLength?
    split
    · rename_i more
      exact absurd rfl (unopened more)
    · rfl

/-! ## The searches -/

/-- With memories, the directive read at a position is the one read without them. -/
theorem inlineHere_sound {text rest : Text} {bounds : Bounds} (sound : bounds.Sound text)
    (pos : Nat) (stands : text.drop pos = rest) :
    (bounds.inlineHere rest pos).1 = Span.inlineHere? rest pos ∧
      (bounds.inlineHere rest pos).2.Sound text := by
  rw [inlineHere, Span.inlineHere?]
  cases head : Span.inlineHead? rest with
  | none => exact ⟨rfl, sound⟩
  | some parts =>
    obtain ⟨action, later⟩ := parts
    obtain ⟨begins, _, _⟩ := (Span.inlineHead?_eq_some_iff rest action later).mp head
    have after : text.drop (pos + Span.marker.length + action.length) = later := by
      rw [Nat.add_assoc, ← List.drop_drop, stands, begins, ← List.append_assoc,
        ← List.length_append, List.drop_left]
    obtain ⟨length, kept⟩ := blobLength_sound sound false _ after
    simp only [length]
    exact ⟨trivial, kept⟩

/-- With memories, the first directive from a position on is the one found without them. -/
theorem inlineSearch_sound {text rest : Text} {bounds : Bounds} (sound : bounds.Sound text)
    (pos : Nat) (stands : text.drop pos = rest) :
    (bounds.inlineSearch rest pos).1 = Span.inlineSearch? rest pos ∧
      (bounds.inlineSearch rest pos).2.Sound text := by
  induction rest generalizing pos bounds with
  | nil => exact ⟨rfl, sound⟩
  | cons c rest inductionHypothesis =>
    obtain ⟨here, kept⟩ := inlineHere_sound sound pos stands
    have next : text.drop (pos + 1) = rest := by
      rw [← List.drop_drop, stands, List.drop_succ_cons, List.drop_zero]
    simp only [inlineSearch, Span.inlineSearch?, ← here]
    cases found : bounds.inlineHere (c :: rest) pos with
    | mk answer after =>
      rw [found] at kept
      cases answer with
      | some span => exact ⟨rfl, kept⟩
      | none => exact inductionHypothesis kept (pos + 1) next

/-- With memories, a question for the next directive gets the answer of a fresh search. -/
theorem inlineFrom_sound {text : Text} {bounds : Bounds} (sound : bounds.Sound text)
    (pos : Nat) :
    (bounds.inlineFrom pos).1 = Span.inlineFrom? text pos ∧
      (bounds.inlineFrom pos).2.Sound text := by
  rw [inlineFrom]
  rw [sound.text_eq]
  exact inlineSearch_sound sound pos rfl

/-- With memories, the token read at a position is the one read without them. -/
theorem placeholderHere_sound {text rest : Text} {bounds : Bounds} (sound : bounds.Sound text)
    (pos : Nat) (stands : text.drop pos = rest) :
    (bounds.placeholderHere rest pos).1 = Span.placeholderHere? rest pos ∧
      (bounds.placeholderHere rest pos).2.Sound text := by
  rw [placeholderHere, Span.placeholderHere?]
  cases head : Span.placeholderHead? rest with
  | none => exact ⟨rfl, sound⟩
  | some parts =>
    obtain ⟨action, mode, later⟩ := parts
    obtain ⟨begins, _⟩ := (Span.placeholderHead?_eq_some_iff rest action mode later).mp head
    have after : text.drop (pos + Span.placeholderHeadLength action mode) = later := by
      have length : Span.placeholderHeadLength action mode =
          (Span.placeholderOpening action mode).length := by
        simp only [Span.placeholderHeadLength, Span.placeholderOpening, List.length_cons,
          List.length_append]
        omega
      rw [← List.drop_drop, stands, begins, length, List.drop_left]
    obtain ⟨length, kept⟩ := blobLength_sound sound true _ after
    simp only [length]
    exact ⟨trivial, kept⟩

/-- With memories, the first token from a position on is the one found without them. -/
theorem placeholderSearch_sound {text rest : Text} {bounds : Bounds}
    (sound : bounds.Sound text) (pos : Nat) (stands : text.drop pos = rest) :
    (bounds.placeholderSearch rest pos).1 = Span.placeholderSearch? rest pos ∧
      (bounds.placeholderSearch rest pos).2.Sound text := by
  induction rest generalizing pos bounds with
  | nil => exact ⟨rfl, sound⟩
  | cons c rest inductionHypothesis =>
    obtain ⟨here, kept⟩ := placeholderHere_sound sound pos stands
    have next : text.drop (pos + 1) = rest := by
      rw [← List.drop_drop, stands, List.drop_succ_cons, List.drop_zero]
    simp only [placeholderSearch, Span.placeholderSearch?, ← here]
    cases found : bounds.placeholderHere (c :: rest) pos with
    | mk answer after =>
      rw [found] at kept
      cases answer with
      | some span => exact ⟨rfl, kept⟩
      | none => exact inductionHypothesis kept (pos + 1) next

/-- With memories, a question for the next token gets the answer of a fresh search. -/
theorem placeholderFrom_sound {text : Text} {bounds : Bounds} (sound : bounds.Sound text)
    (pos : Nat) :
    (bounds.placeholderFrom pos).1 = Span.placeholderFrom? text pos ∧
      (bounds.placeholderFrom pos).2.Sound text := by
  rw [placeholderFrom]
  rw [sound.text_eq]
  exact placeholderSearch_sound sound pos rfl

end Bounds

end HiddenContent
