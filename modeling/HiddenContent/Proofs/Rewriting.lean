import HiddenContent.Encoding
import HiddenContent.Proofs.Walk
import HiddenContent.Search

/-!
# Encoding and stripping, piece by piece

Encoding and stripping both splice: they keep a text except for chosen spans, which are written
anew. On the pieces of the text a splice is a map, in which each chosen form is replaced and
everything else stays. The stored text and the text that is searched are such maps, so what holds
of each piece holds of them.
-/

namespace HiddenContent

namespace Piece

/-- A piece with a chosen form written anew. -/
def rewritten (chosen : Span → Bool) (image : Text → Span → Text) : Piece → Text
  | plain c => [c]
  | form written reading => if chosen reading then image written reading else written

/-- Splicing at the chosen spans writes the pieces one by one. The text `before` is written
    already, and the text `gap` stands between it and the pieces. -/
theorem splice_placed {reader : Reader} (text : Text) (chosen : Span → Bool)
    (write : Span → Text) (image : Text → Span → Text)
    (choice : ∀ offset reading, chosen (reading.moved offset) = chosen reading)
    (writes : ∀ first written reading last, text = first ++ (written ++ last) →
      reader.Reads written reading → write (reading.moved first.length) = image written reading)
    {pieces : List Piece} (scan : Scan reader pieces) (before gap : Text)
    (whole : text = before ++ (gap ++ textOf pieces)) :
    Span.splice text write before.length
        ((placed (before.length + gap.length) pieces).filter chosen) =
      gap ++ pieces.flatMap (rewritten chosen image) := by
  induction scan generalizing before gap with
  | done =>
    subst whole
    simp [placed, Span.splice]
  | @pass c rest refused later inductionHypothesis =>
    have longer := inductionHypothesis before (gap ++ [c]) (by simpa using whole)
    rw [List.length_append, ← Nat.add_assoc] at longer
    simpa [placed, rewritten] using longer
  | @take written reading rest reads later inductionHypothesis =>
    have length := reads.stop
    have start := reads.start
    cases select : chosen reading with
    | true =>
      have same : write (reading.moved (before ++ gap).length) = image written reading :=
        writes (before ++ gap) written reading (textOf rest) (by simpa using whole) reads
      have slice : text.slice before.length (before ++ gap).length = gap := by
        subst whole
        simp [Text.slice]
      have place : (reading.moved (before ++ gap).length).start = (before ++ gap).length := by
        simp [Span.moved, start]
      have stop : (reading.moved (before ++ gap).length).stop =
          (before ++ gap ++ written).length := by
        simp [Span.moved, length, Nat.add_assoc]
      have further := inductionHypothesis (before ++ gap ++ written) [] (by simpa using whole)
      simp only [List.length_nil, Nat.add_zero, List.nil_append] at further
      rw [← List.length_append, placed, List.filter_cons, choice, select, if_pos rfl,
        Span.splice, place, slice, same, stop, ← List.length_append, further]
      simp [rewritten, select]
    | false =>
      have longer := inductionHypothesis before (gap ++ written) (by simpa using whole)
      rw [List.length_append, ← Nat.add_assoc] at longer
      simpa [placed, choice, select, rewritten] using longer

/-- A slice at a moved span is its written form. -/
theorem slice_moved {reader : Reader} (first written last : Text) (reading : Span)
    (reads : reader.Reads written reading) :
    (first ++ (written ++ last)).slice (reading.moved first.length).start
      (reading.moved first.length).stop = written := by
  have length := reads.stop
  have start := reads.start
  simp [Text.slice, Span.moved, start, length]

/-- Every form that is read of a text stands at one of its spans. -/
theorem exists_span_of_form (text : Text) {written : Text} {reading : Span}
    (member : .form written reading ∈ cut (Reader.all true) text) :
    ∃ span ∈ Tokens.ofText text true, text.slice span.start span.stop = written := by
  obtain ⟨scan, whole⟩ := scan_cut (Reader.isLocal_all true) text
  obtain ⟨first, last, parts⟩ := List.append_of_mem member
  rw [parts] at scan whole
  have reads : (Reader.all true).Reads written reading := by
    cases scan.right with
    | take reads later => exact reads
  refine ⟨reading.moved (textOf first).length, ?_, ?_⟩
  · rw [Tokens.ofText_eq_placed, parts]
    have placed := mem_placed first last written reading 0
    rwa [Nat.zero_add] at placed
  · rw [← whole, textOf_append, textOf_form]
    exact slice_moved (textOf first) written (textOf last) reading reads

end Piece

namespace Settings

/-- A span hides when it is a directive, not a token, of the configured action. -/
theorem hides_iff (settings : Settings) (span : Span) :
    settings.hides span = true ↔
      span.isPlaceholder = false ∧ settings.acts span.action = true := by
  simp [hides]

/-- What the stored text holds in place of a piece. -/
def storedPiece (settings : Settings) : Piece → Text :=
  Piece.rewritten settings.hides fun _ reading =>
    settings.token reading.mode (settings.canonicalize reading.blob)

/-- What is left of a piece when hidden content is taken out. -/
def shownPiece (settings : Settings) : Piece → Text :=
  Piece.rewritten (fun reading => settings.acts reading.action) fun _ _ => []

/-- Nothing is shown of a form of the configured action. -/
theorem shownPiece_of_acts (settings : Settings) (written : Text) (reading : Span)
    (acts : settings.acts reading.action = true) :
    settings.shownPiece (.form written reading) = [] := by
  simp [shownPiece, Piece.rewritten, acts]

/-- What is shown of several pieces. -/
def shownOf (settings : Settings) (pieces : List Piece) : Text :=
  pieces.flatMap settings.shownPiece

/-- Of no pieces nothing is shown. -/
@[simp] theorem shownOf_nil (settings : Settings) : settings.shownOf [] = [] := rfl

/-- What is shown of pieces, one after the other. -/
@[simp] theorem shownOf_cons (settings : Settings) (piece : Piece) (rest : List Piece) :
    settings.shownOf (piece :: rest) = settings.shownPiece piece ++ settings.shownOf rest := rfl

/-- What is shown of pieces that follow one another. -/
@[simp] theorem shownOf_append (settings : Settings) (first second : List Piece) :
    settings.shownOf (first ++ second) = settings.shownOf first ++ settings.shownOf second :=
  List.flatMap_append

/-- Encoding writes the pieces of a text one by one. -/
theorem encodeInline_eq (settings : Settings) (text : Text) :
    settings.encodeInline text =
      (Piece.cut (Reader.all true) text).flatMap settings.storedPiece := by
  obtain ⟨scan, same⟩ := Piece.scan_cut (Reader.isLocal_all true) text
  have spliced := Piece.splice_placed text (fun _ => true)
    (settings.encodeSpan text)
    (fun written reading =>
      if settings.hides reading then
        settings.token reading.mode (settings.canonicalize reading.blob)
      else written)
    (fun _ _ => rfl)
    (by
      intro first written reading last whole reads
      subst whole
      rw [encodeSpan]
      rw [Piece.slice_moved first written last reading reads]
      rfl)
    scan [] [] (by simpa using same.symm)
  rw [encodeInline]
  rw [Tokens.ofText_eq_placed]
  rw [List.filter_eq_self.mpr (fun _ _ => rfl)] at spliced
  simp only [List.length_nil, Nat.add_zero, List.nil_append] at spliced
  exact spliced

/-- Taking out all spans of the configured action leaves the shown parts of the pieces. -/
theorem splice_shown (settings : Settings) {reader : Reader} (isLocal : reader.IsLocal)
    (text : Text) :
    Span.splice text (fun _ => []) 0
        ((Piece.placed 0 (Piece.cut reader text)).filter
          fun span => settings.acts span.action) =
      settings.shownOf (Piece.cut reader text) := by
  obtain ⟨scan, same⟩ := Piece.scan_cut isLocal text
  exact Piece.splice_placed text (fun span => settings.acts span.action) (fun _ => [])
    (fun _ _ => []) (fun _ _ => rfl) (fun _ _ _ _ _ _ => rfl) scan [] []
    (by simpa using same.symm)

end Settings

/-- Stripping leaves what is shown of the pieces, for the reader of tokens. -/
theorem Search.strip_eq (settings : Settings) (content : Text) :
    strip settings content = settings.shownOf (Piece.cut Reader.tokens content) := by
  rw [strip]
  rw [Tokens.placeholders_eq_placed]
  exact settings.splice_shown Reader.isLocal_tokens content

end HiddenContent
