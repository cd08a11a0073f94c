import HiddenContent.Proofs.Rewriting

/-!
# A payload leaves no trace in the stored text

Two texts differ in one directive only: what stands before it and after it is the same, and so are
its attributes. A payload is seen by every unfinished form before it, which looks ahead for its
closing brace or marker. None of them reaches into the directive, because what a form reads ends
before the next form begins. Hence both texts have the same pieces around the directive, and the
same stored text.
-/

namespace HiddenContent

/-- A span of a composed text that covers its middle part is the form of that part, and the pieces
    around it are those of the parts around it. -/
theorem Piece.cut_of_covering {reader : Reader} (isLocal : reader.IsLocal)
    (before middle after : Text) (span : Span)
    (member : span ∈ placed 0 (cut reader (before ++ (middle ++ after))))
    (start : span.start = before.length) (stop : span.stop = before.length + middle.length) :
    ∃ reading, span = reading.moved before.length ∧ reader.Reads middle reading ∧
      cut reader (before ++ (middle ++ after)) =
        cut reader before ++ form middle reading :: cut reader after := by
  obtain ⟨scan, whole⟩ := scan_cut isLocal (before ++ (middle ++ after))
  obtain ⟨first, written, reading, last, pieces, rfl⟩ := exists_of_mem_placed member
  rw [pieces] at scan whole
  have reads : reader.Reads written reading := by
    cases scan.right with
    | take reads _ => exact reads
  have readingStart := reads.start
  have readingStop := reads.stop
  simp only [Span.moved, Nat.zero_add] at start stop
  have beforeLength : (textOf first).length = before.length := by omega
  have middleLength : written.length = middle.length := by omega
  rw [textOf_append, textOf_form] at whole
  obtain ⟨sameBefore, rest⟩ := List.append_inj whole beforeLength
  obtain ⟨sameMiddle, sameAfter⟩ := List.append_inj rest middleLength
  subst sameMiddle
  refine ⟨reading, by rw [Nat.zero_add, sameBefore], reads, ?_⟩
  have leftPieces := cut_textOf (scan.left isLocal)
  have rightPieces : cut reader (textOf last) = last := by
    cases scan.right with
    | take _ later => exact cut_textOf later
  rw [pieces, ← sameBefore, ← sameAfter, leftPieces, rightPieces]

/-- What is read as a directive is inline. -/
theorem Reader.Reads.mode_eq {written : Text} {reading : Span}
    (reads : (all true).Reads written reading) (directive : reading.isPlaceholder = false) :
    reading.mode = .inline := by
  rcases reads.directive_or_token with ⟨directive, _, rfl⟩ | ⟨placeholder, _, rfl⟩
  · rfl
  · simp [Placeholder.span] at directive

/-- Two texts that differ in one hidden directive, with equal attributes, are stored alike.

    Proof: both spans are pieces of the walks over their texts, and the pieces around them are those
    of the same text. What a hidden piece is stored as depends on its mode and its blob alone. -/
theorem encodeInline_eq_of_same_blob (settings : Settings) (before after : Text)
    (first second : Text) (firstSpan secondSpan : Span)
    (firstRead : firstSpan ∈ Tokens.ofText (before ++ first ++ after) true)
    (secondRead : secondSpan ∈ Tokens.ofText (before ++ second ++ after) true)
    (firstPlace : firstSpan.start = before.length ∧
      firstSpan.stop = before.length + first.length)
    (secondPlace : secondSpan.start = before.length ∧
      secondSpan.stop = before.length + second.length)
    (firstHides : settings.hides firstSpan = true)
    (secondHides : settings.hides secondSpan = true)
    (sameBlob : firstSpan.blob = secondSpan.blob) :
    settings.encodeInline (before ++ first ++ after) =
      settings.encodeInline (before ++ second ++ after) := by
  have isLocal := Reader.isLocal_all true
  rw [List.append_assoc, Tokens.ofText_eq_placed] at firstRead secondRead
  obtain ⟨reading, rfl, reads, firstPieces⟩ := Piece.cut_of_covering isLocal before first after
    firstSpan firstRead firstPlace.1 firstPlace.2
  obtain ⟨other, rfl, otherReads, secondPieces⟩ := Piece.cut_of_covering isLocal before second
    after secondSpan secondRead secondPlace.1 secondPlace.2
  have hides : settings.hides reading = true := firstHides
  have otherHides : settings.hides other = true := secondHides
  have blob : reading.blob = other.blob := sameBlob
  have mode := reads.mode_eq ((settings.hides_iff reading).mp hides).1
  have otherMode := otherReads.mode_eq ((settings.hides_iff other).mp otherHides).1
  have image : settings.storedPiece (.form first reading) =
      settings.storedPiece (.form second other) := by
    simp only [Settings.storedPiece, Piece.rewritten, hides, otherHides, if_true, mode,
      otherMode, blob]
  rw [settings.encodeInline_eq, settings.encodeInline_eq, List.append_assoc, List.append_assoc,
    firstPieces, secondPieces]
  simp only [List.flatMap_append, List.flatMap_cons, image]

/-- A payload with a line feed, a closing brace and a token is stored as a short one is, behind a
    bracket and a brace that are still open. -/
theorem encodeInline_eq_of_same_blob_open :
    Settings.encodeInline {}
        ("[a-inline\x7b ".toList ++ ":::hide\x7bk=v\x7d x:::".toList ++ " \x7d]".toList) =
      Settings.encodeInline {}
        ("[a-inline\x7b ".toList ++ ":::hide\x7bk=v\x7d  \x7d\n[hide-block] :::".toList ++
          " \x7d]".toList) := by
  apply encodeInline_eq_of_same_blob {} "[a-inline\x7b ".toList " \x7d]".toList
    ":::hide\x7bk=v\x7d x:::".toList ":::hide\x7bk=v\x7d  \x7d\n[hide-block] :::".toList
    ⟨.inline, "hide".toList, 11, 28, "\x7bk=v\x7d".toList, ['x'], false⟩
    ⟨.inline, "hide".toList, 11, 43, "\x7bk=v\x7d".toList, "\x7d\n[hide-block]".toList, false⟩
  · rw [Tokens.ofText_eq_placed]
    decide
  · rw [Tokens.ofText_eq_placed]
    decide
  all_goals decide

end HiddenContent
