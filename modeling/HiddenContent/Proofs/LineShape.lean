import HiddenContent.Proofs.Blanks
import Mathlib.Data.List.Forall2

/-!
# Encoding keeps openers and closers

A line counts for blocks in two ways only: which action it opens, if any, and whether it closes.
Encoding a calm line keeps both. An opener is a marker, a word and a blob: nothing is read at
its marker, so each part stays in its place, and the blob closes where it did. In the other
direction a line that becomes an opener had the same parts before, which `Redacted` finds.

A calm text in which no form goes over a line feed is encoded by encoding its lines.
-/

namespace HiddenContent

/-- A head with an open blob has one whatever follows the text. -/
theorem opensBlob_append (text rest : Text) (opens : opensBlob text = true) :
    opensBlob (text ++ rest) = true := by
  rw [opensBlob_iff] at opens ⊢
  rcases opens with ⟨action, more, word, rfl⟩ | ⟨action, mode, more, word, rfl⟩
  · exact Or.inl ⟨action, more ++ rest, word, by simp⟩
  · exact Or.inr ⟨action, mode, more ++ rest, word, by simp⟩

namespace Settings

/-- Pieces after the last ones matter only to a blob that is still open there. -/
theorem keepsBlob_left (settings : Settings) (first last : List Piece)
    (keeps : settings.keepsBlob (first ++ last) = true) : settings.keepsBlob first = true := by
  induction first with
  | nil => rfl
  | cons piece rest inductionHypothesis =>
    cases piece with
    | plain c =>
      simp only [List.cons_append, keepsBlob, Bool.or_eq_true] at keeps ⊢
      exact keeps.imp id inductionHypothesis
    | form written reading =>
      simp only [List.cons_append, keepsBlob] at keeps ⊢
      split
      · rename_i hides
        rw [if_pos hides, Bool.and_eq_true] at keeps
        rw [Bool.and_eq_true]
        exact ⟨keeps.1, inductionHypothesis keeps.2⟩
      · rename_i shown
        rw [if_neg shown, Bool.or_eq_true] at keeps
        rw [Bool.or_eq_true]
        exact keeps.imp id inductionHypothesis

/-- The first pieces of calm pieces are calm. -/
theorem keepsBlobs_left (settings : Settings) (first last : List Piece)
    (keeps : settings.keepsBlobs (first ++ last) = true) : settings.keepsBlobs first = true := by
  induction first with
  | nil => rfl
  | cons piece rest inductionHypothesis =>
    cases piece with
    | plain c =>
      simp only [List.cons_append, keepsBlobs, Bool.and_eq_true, Bool.or_eq_true,
        Bool.not_eq_true', Piece.textOf_append] at keeps ⊢
      refine ⟨?_, inductionHypothesis keeps.2⟩
      cases opens : opensBlob (c :: Piece.textOf rest) with
      | false => exact Or.inl rfl
      | true =>
        have still := opensBlob_append _ (Piece.textOf last) opens
        rcases keeps.1 with closed | kept
        · rw [List.cons_append, closed] at still
          exact absurd still (by simp)
        · exact Or.inr (settings.keepsBlob_left rest last kept)
    | form written reading => exact inductionHypothesis keeps

/-- The last pieces of calm pieces are calm. -/
theorem keepsBlobs_right (settings : Settings) (first last : List Piece)
    (keeps : settings.keepsBlobs (first ++ last) = true) : settings.keepsBlobs last = true := by
  induction first with
  | nil => exact keeps
  | cons piece rest inductionHypothesis =>
    cases piece with
    | plain c =>
      simp only [List.cons_append, keepsBlobs, Bool.and_eq_true] at keeps
      exact inductionHypothesis keeps.2
    | form written reading => exact inductionHypothesis keeps

/-- A calm line is calm between its blanks. -/
theorem isCalm_strip (settings : Settings) (line : Text) (calm : settings.isCalm line = true) :
    settings.isCalm line.strip = true := by
  obtain ⟨lead, trail, whole, leading, trailing, _⟩ := Text.exists_strip line
  rw [isCalm] at calm ⊢
  rw [whole, Piece.cut_blanks_append lead _ leading,
    Piece.cut_append_blanks line.strip trail trailing] at calm
  exact settings.keepsBlobs_left _ _ (settings.keepsBlobs_right _ _ calm)

/-- Encoding a line encodes what stands between its blanks. -/
theorem strip_encodeInline (settings : Settings) (line : Text) :
    (settings.encodeInline line).strip = settings.encodeInline line.strip := by
  obtain ⟨lead, trail, whole, leading, trailing, trimmed⟩ := Text.exists_strip line
  have encoded := settings.encodeInline_between lead line.strip trail leading trailing
  rw [← whole] at encoded
  rw [encoded]
  exact Text.strip_between lead _ trail leading trailing
    (settings.isTrimmed_encodeInline line.strip trimmed)

end Settings

/-! ## Lines of a calm text -/

namespace Piece

/-- Pieces on several lines are cut at the first line feed when every form is on one line. -/
theorem exists_lineFeed (pieces : List Piece)
    (single : ∀ written reading, form written reading ∈ pieces → '\n' ∉ written)
    (present : '\n' ∈ textOf pieces) :
    ∃ first last, pieces = first ++ plain '\n' :: last ∧ '\n' ∉ textOf first := by
  induction pieces with
  | nil => simp at present
  | cons piece rest inductionHypothesis =>
    have later : ∀ written reading, form written reading ∈ rest → '\n' ∉ written := by
      intro written reading member
      exact single written reading (List.mem_cons_of_mem _ member)
    cases piece with
    | plain c =>
      by_cases feed : c = '\n'
      · subst feed
        exact ⟨[], rest, rfl, by simp⟩
      · have other : '\n' ≠ c := fun same => feed same.symm
        rw [textOf_plain, List.mem_cons] at present
        obtain ⟨first, last, rfl, absent⟩ :=
          inductionHypothesis later (present.resolve_left other)
        exact ⟨plain c :: first, last, rfl, by simp [other, absent]⟩
    | form written reading =>
      have outside := single written reading (by simp)
      rw [textOf_form, List.mem_append] at present
      obtain ⟨first, last, rfl, absent⟩ :=
        inductionHypothesis later (present.resolve_left outside)
      exact ⟨form written reading :: first, last, rfl, by simp [outside, absent]⟩

end Piece

namespace Settings

/-- The pieces of one calm line are stored as its line is encoded, on one line. -/
theorem storedOf_line (settings : Settings) {pieces : List Piece}
    (scan : Piece.Scan (Reader.all true) pieces) (calm : settings.keepsBlobs pieces = true)
    (single : '\n' ∉ Piece.textOf pieces) :
    '\n' ∉ settings.storedOf pieces ∧ settings.isCalm (Piece.textOf pieces) = true ∧
      settings.storedOf pieces = settings.encodeInline (Piece.textOf pieces) := by
  have same := Piece.cut_textOf scan
  have fewer := settings.count_storedOf scan
  rw [List.count_eq_zero.mpr single, Nat.le_zero] at fewer
  refine ⟨List.count_eq_zero.mp fewer, ?_, ?_⟩
  · rwa [isCalm, same]
  · rw [encodeInline_eq_storedOf, same]

/-- Calm pieces are stored line by line when every form is on one line.

The induction is on the number of pieces, because a line takes several of them at once. -/
theorem storedOf_byLine (settings : Settings) (pieces : List Piece)
    (scan : Piece.Scan (Reader.all true) pieces) (calm : settings.keepsBlobs pieces = true)
    (single : ∀ written reading, Piece.form written reading ∈ pieces → '\n' ∉ written) :
    List.Forall₂
      (fun line stored => settings.isCalm line = true ∧ stored = settings.encodeInline line)
      (Piece.textOf pieces).lines (settings.storedOf pieces).lines := by
  induction size : pieces.length using Nat.strong_induction_on generalizing pieces with
  | _ bound inductionHypothesis =>
    by_cases present : '\n' ∈ Piece.textOf pieces
    · obtain ⟨first, last, rfl, absent⟩ := Piece.exists_lineFeed pieces single present
      obtain ⟨unbroken, calmly, encoded⟩ :=
        settings.storedOf_line (scan.left (Reader.isLocal_all true))
          (settings.keepsBlobs_left _ _ calm) absent
      have onward : Piece.Scan (Reader.all true) last := by
        cases scan.right with
        | pass refused later => exact later
      have keeps : settings.keepsBlobs last = true := by
        have both := settings.keepsBlobs_right _ _ calm
        rw [keepsBlobs, Bool.and_eq_true] at both
        exact both.2
      have within : ∀ written reading, Piece.form written reading ∈ last → '\n' ∉ written := by
        intro written reading member
        exact single written reading (by simp [member])
      have shorter : last.length < bound := by
        rw [← size, List.length_append, List.length_cons]
        omega
      have rest := inductionHypothesis last.length shorter last onward keeps within rfl
      rw [Piece.textOf_append, Piece.textOf_plain, storedOf_append, storedOf_plain,
        Text.lines_append_lineFeed _ _ absent, Text.lines_append_lineFeed _ _ unbroken]
      exact .cons ⟨calmly, encoded⟩ rest
    · obtain ⟨unbroken, calmly, encoded⟩ := settings.storedOf_line scan calm present
      rw [Text.lines, Text.lines, List.splitOn_eq_singleton present,
        List.splitOn_eq_singleton unbroken]
      exact .cons ⟨calmly, encoded⟩ .nil

/-- Inline encoding works line by line on a text: every line of the stored text is the line as it
    was, or a calm line encoded on its own. -/
def EncodesByLine (settings : Settings) (text : Text) : Prop :=
  List.Forall₂
    (fun line stored =>
      stored = line ∨ (settings.isCalm line = true ∧ stored = settings.encodeInline line))
    text.lines (settings.encodeInline text).lines

/-- True for a calm text in which every span stands on one line. -/
def isCalmByLine (settings : Settings) (text : Text) : Bool :=
  settings.isCalm text &&
    (Tokens.ofText text true).all fun span => !(text.slice span.start span.stop).contains '\n'

/-- A calm text in which every span stands on one line is encoded line by line.

    Proof: every form that is read of the text is what stands at a span, hence on one line, and calm
    pieces with such forms are stored line by line. -/
theorem encodesByLine_of_calm (settings : Settings) (text : Text)
    (calmly : settings.isCalmByLine text = true) : settings.EncodesByLine text := by
  rw [isCalmByLine, Bool.and_eq_true, List.all_eq_true] at calmly
  obtain ⟨calm, within⟩ := calmly
  have single : ∀ written reading,
      Piece.form written reading ∈ Piece.cut (Reader.all true) text → '\n' ∉ written := by
    intro written reading member present
    obtain ⟨span, found, stands⟩ := Piece.exists_span_of_form text member
    have unbroken := within span found
    rw [stands] at unbroken
    simp [present] at unbroken
  obtain ⟨scan, whole⟩ := Piece.scan_cut (Reader.isLocal_all true) text
  have lines := settings.storedOf_byLine _ scan calm single
  rw [whole, ← encodeInline_eq_storedOf] at lines
  exact lines.imp fun line stored each => Or.inr each

end Settings

/-! ## Openers between blanks -/

/-- A marker, a given action and a blob, and nothing else. -/
def IsOpenerOf (action text : Text) : Prop :=
  ∃ blob, text = Span.marker ++ (action ++ blob) ∧ action.IsWordRun ∧ Span.IsBlob false blob

/-- The action that a line opens is the action of the opener between its blanks. -/
theorem BlockOpener.action_ofLine?_eq_some_iff (line action : Text) :
    (ofLine? line).map BlockOpener.action = some action ↔ IsOpenerOf action line.strip := by
  rw [Option.map_eq_some_iff]
  constructor
  · rintro ⟨opener, read, rfl⟩
    obtain ⟨whole, word, closed⟩ := (ofLine?_eq_some_iff line opener).mp read
    exact ⟨opener.blob, whole, word, closed⟩
  · rintro ⟨blob, whole, word, closed⟩
    exact ⟨⟨action, blob⟩, (ofLine?_eq_some_iff line _).mpr ⟨whole, word, closed⟩, rfl⟩

namespace IsOpenerOf

/-- Nothing is read at the marker of an opener: no spacing follows its blob. -/
theorem refused {action text : Text} (opener : IsOpenerOf action text) :
    Reader.all true text = none := by
  obtain ⟨blob, rfl, word, closed⟩ := opener
  rw [Reader.all_eq_none_iff]
  constructor
  · cases read : Span.inlineHere? (Span.marker ++ (action ++ blob)) 0 with
    | none => rfl
    | some found =>
      obtain ⟨directive, rest, same, _⟩ := Directive.exists_of_read _ 0 found read
      have stops : blob.StopsAt Text.isWord := by
        rcases closed with empty | ⟨inside, braces, _⟩
        · simp [empty, Text.stopsAt_nil]
        · rw [braces, Text.stopsAt_cons]
          decide
      have first := (Span.inlineHead?_eq_some_iff _ action blob).mpr ⟨rfl, word, stops⟩
      have second := (Span.inlineHead?_eq_some_iff (directive.written ++ rest) directive.action
        (directive.afterAction ++ rest)).mpr ⟨by simp [Directive.written],
          directive.action_word, (directive.stopsAt_afterAction rest).1⟩
      rw [← same, first, Option.some.injEq, Prod.mk.injEq] at second
      have parts : blob = directive.blob ++
          (directive.spacing ++ (directive.payload ++ Span.marker ++ rest)) := by
        rw [second.2]
        simp [Directive.afterAction]
      have full := (Span.blobLength?_eq_length_iff false blob).mpr closed
      have part := Span.blobLength?_append false directive.blob
        (directive.spacing ++ (directive.payload ++ Span.marker ++ rest)) directive.blob_closed
        (directive.stopsAt_afterAction _).2
      rw [← parts, full, Option.some.injEq] at part
      have counted := congrArg List.length parts
      have inhabited := List.length_pos_iff.mpr directive.spacing_inhabited
      simp only [List.length_append] at counted
      omega
  · cases read : Span.placeholderHere? (Span.marker ++ (action ++ blob)) 0 with
    | none => rfl
    | some found =>
      obtain ⟨token, rest, same, _⟩ := Placeholder.exists_of_read _ 0 found read
      obtain ⟨tail, begins⟩ := token.written_eq_cons
      simp [begins, Span.marker] at same

end IsOpenerOf

/-- Where no marker stands in front of a text, the first character stays. -/
theorem Redacted.exists_of_unmarked {guarded : Bool} {c : Char} {text stored : Text}
    (redacted : Redacted guarded (c :: text) stored) (unmarked : ¬Span.marker <+: c :: text) :
    ∃ more, stored = c :: more ∧ Redacted (guarded && c != '}') text more := by
  generalize same : c :: text = whole at redacted
  cases redacted with
  | done => simp at same
  | keep d later =>
    simp only [List.cons.injEq] at same
    obtain ⟨rfl, rfl⟩ := same
    exact ⟨_, rfl, later⟩
  | replace directive token intact later =>
    rw [same] at unmarked
    exact absurd ⟨directive.action ++ (directive.afterAction ++ _), by
      simp only [Directive.written, List.append_assoc]
      rfl⟩ unmarked

namespace Settings

/-- The pieces after the first character of a text at which nothing is read, with what they are
    stored as. -/
theorem redacted_of_refused (settings : Settings)
    (sealing : '}' ∈ settings.forbiddenCharacters) (c : Char) (text : Text)
    (calm : settings.isCalm (c :: text) = true) (refused : Reader.all true (c :: text) = none) :
    ∃ stored, settings.encodeInline (c :: text) = c :: stored ∧
      Redacted (opensBlob (c :: text)) text stored := by
  obtain ⟨scan, whole⟩ := Piece.scan_cut (Reader.isLocal_all true) text
  rw [isCalm] at calm
  rw [Piece.cut_of_refused refused] at calm
  simp only [keepsBlobs, Bool.and_eq_true, Bool.or_eq_true, Bool.not_eq_true', whole] at calm
  refine ⟨settings.storedOf (Piece.cut (Reader.all true) text), ?_, ?_⟩
  · rw [encodeInline_eq_storedOf, Piece.cut_of_refused refused]
    rfl
  · have redacted := settings.redacted_storedOf sealing scan (opensBlob (c :: text)) (by
      intro opens
      rcases calm.1 with closed | kept
      · rw [closed] at opens
        exact absurd opens (by simp)
      · exact kept)
    rwa [whole] at redacted

/-- An opener is encoded as an opener of the same action. -/
theorem isOpenerOf_encodeInline (settings : Settings)
    (sealing : '}' ∈ settings.forbiddenCharacters) (action text : Text)
    (calm : settings.isCalm text = true) (opener : IsOpenerOf action text) :
    IsOpenerOf action (settings.encodeInline text) := by
  have refused := opener.refused
  obtain ⟨blob, rfl, word, closed⟩ := opener
  obtain ⟨first, others, same⟩ := List.exists_cons_of_ne_nil word.1
  have colon : first ≠ ':' := by
    rintro rfl
    exact word.not_mem ':' (by decide) (by simp [same])
  -- the three colons stay, then the word, and then the blob up to its closing brace
  obtain ⟨stored, encoded, redacted⟩ :=
    settings.redacted_of_refused sealing ':' (':' :: ':' :: (action ++ blob)) calm refused
  obtain ⟨second, rfl, afterSecond⟩ := redacted.exists_of_unmarked (by
    simp [Span.marker, same, Ne.symm colon])
  obtain ⟨third, rfl, afterThird⟩ := afterSecond.exists_of_unmarked (by
    simp [Span.marker, same, Ne.symm colon])
  obtain ⟨tail, rfl, afterWord⟩ := afterThird.exists_stored action blob
    (word.not_mem ':' (by decide)) (word.not_mem '}' (by decide))
  refine ⟨tail, encoded, word, ?_⟩
  rcases closed with rfl | ⟨inside, rfl, unclosed, lines⟩
  · exact Or.inl afterWord.stored_eq_nil
  · have opens : opensBlob (':' :: ':' :: ':' :: (action ++ '{' :: (inside ++ ['}']))) = true :=
      (opensBlob_iff _).mpr (Or.inl ⟨action, inside ++ ['}'], word, rfl⟩)
    rw [opens] at afterWord
    obtain ⟨braced, rfl, afterBrace⟩ :=
      afterWord.exists_stored ['{'] (inside ++ ['}']) (by decide) (by decide)
    rcases Redacted.braces afterBrace with
      ⟨absent, _⟩ | ⟨first, rest, written, more, parts, rfl, unbroken, shut, breaks, after⟩
    · exact absurd (by simp) absent
    · obtain ⟨rfl, rfl⟩ := Span.inside_unique inside first [] rest unclosed unbroken parts
      rw [after.stored_eq_nil]
      refine Or.inr ⟨written, rfl, shut, ?_⟩
      intro single present
      exact lines single (breaks.mpr present)

/-- What is encoded as an opener is one of the same action. -/
theorem isOpenerOf_of_encodeInline (settings : Settings)
    (sealing : '}' ∈ settings.forbiddenCharacters) (action text : Text)
    (calm : settings.isCalm text = true)
    (opener : IsOpenerOf action (settings.encodeInline text)) : IsOpenerOf action text := by
  have stillRefused := opener.refused
  obtain ⟨blob, whole, word, closed⟩ := opener
  cases text with
  | nil =>
    rw [encodeInline_eq_storedOf] at whole
    simp [Piece.cut, Piece.cutFrom, Span.marker] at whole
  | cons c rest =>
    cases read : Reader.all true (c :: rest) with
    | some reading =>
      -- a form in front is a token afterwards, or is read afterwards as it was
      obtain ⟨written, more, parts, reads⟩ := Reader.isLocal_all true _ reading read
      have encoded : settings.encodeInline (c :: rest) =
          settings.storedPiece (.form written reading) ++ settings.encodeInline more := by
        rw [encodeInline_eq_storedOf, encodeInline_eq_storedOf, parts, Piece.cut_of_reads reads]
        rfl
      cases hides : settings.hides reading with
      | true =>
        rw [encoded, storedPiece_of_hides settings _ _ hides, token_eq] at whole
        simp [Span.placeholderOpening, Span.marker] at whole
      | false =>
        rw [encoded, storedPiece_of_keeps settings _ _ hides, reads.anywhere] at stillRefused
        exact absurd stillRefused (by simp)
    | none =>
      obtain ⟨stored, encoded, redacted⟩ :=
        settings.redacted_of_refused sealing c rest calm read
      have parts : Span.marker ++ (action ++ blob) = ':' :: ([':', ':'] ++ action ++ blob) := by
        simp [Span.marker]
      rw [whole, parts, List.cons.injEq] at encoded
      obtain ⟨rfl, rfl⟩ := encoded
      have unopened : '[' ∉ [':', ':'] ++ action := by simp [word.not_mem '[' (by decide)]
      have unclosed : '}' ∉ [':', ':'] ++ action := by simp [word.not_mem '}' (by decide)]
      obtain ⟨more, rfl, later⟩ := Redacted.exists_text _ blob unopened unclosed redacted
      rw [← List.append_nil blob] at later
      obtain ⟨before, tail, rfl, kept, _, after⟩ := later.exists_blob false blob [] closed (by
        intro opened
        obtain ⟨tail, rfl⟩ := List.head?_eq_some_iff.mp opened
        exact (opensBlob_iff _).mpr (Or.inl ⟨action, tail, word, by simp [Span.marker]⟩))
      rw [after.text_eq_nil]
      exact ⟨before, by simp [Span.marker], word, kept⟩

/-- A marker alone is encoded as it is, and nothing else becomes one. -/
theorem encodeInline_eq_marker_iff (settings : Settings)
    (sealing : '}' ∈ settings.forbiddenCharacters) (text : Text) :
    settings.encodeInline text = Span.marker ↔ text = Span.marker := by
  obtain ⟨scan, whole⟩ := Piece.scan_cut (Reader.isLocal_all true) text
  constructor
  · intro encoded
    have redacted := settings.redacted_storedOf sealing scan false (by simp)
    rw [whole, ← encodeInline_eq_storedOf, encoded] at redacted
    obtain ⟨more, same, later⟩ := Redacted.exists_text Span.marker [] (by decide) (by decide)
      redacted
    rw [same, later.text_eq_nil]
    rfl
  · rintro rfl
    have plains : Piece.cut (Reader.all true) Span.marker = Span.marker.map .plain := by decide
    rw [encodeInline_eq_storedOf, plains, storedOf_plains]

end Settings

/-- Two lines count alike for blocks: they open the same action, and both close or neither. -/
structure SameShape (line other : Text) : Prop where
  opener : (BlockOpener.ofLine? line).map BlockOpener.action =
    (BlockOpener.ofLine? other).map BlockOpener.action
  closer : isBlockCloser line = isBlockCloser other

/-- Encoding a calm line keeps what it counts for blocks. -/
theorem Settings.sameShape_encodeInline (settings : Settings)
    (sealing : '}' ∈ settings.forbiddenCharacters) (line : Text)
    (calm : settings.isCalm line = true) : SameShape line (settings.encodeInline line) where
  opener := by
    have calmly := settings.isCalm_strip line calm
    ext action
    rw [BlockOpener.action_ofLine?_eq_some_iff, BlockOpener.action_ofLine?_eq_some_iff,
      strip_encodeInline]
    exact ⟨settings.isOpenerOf_encodeInline sealing action line.strip calmly,
      settings.isOpenerOf_of_encodeInline sealing action line.strip calmly⟩
  closer := by
    rw [Bool.eq_iff_iff]
    simp only [isBlockCloser]
    rw [beq_iff_eq, beq_iff_eq, strip_encodeInline]
    exact (settings.encodeInline_eq_marker_iff sealing line.strip).symm

/-- Encoding line by line leaves lines that are alike when a line is like itself and a calm line
    like its encoded form. -/
theorem Settings.EncodesByLine.alike {settings : Settings} {text : Text}
    {alike : Text → Text → Prop} (byLine : settings.EncodesByLine text)
    (same : ∀ line, alike line line)
    (encoded : ∀ line, settings.isCalm line = true → alike line (settings.encodeInline line)) :
    List.Forall₂ alike text.lines (settings.encodeInline text).lines := by
  refine byLine.imp ?_
  rintro line stored (rfl | ⟨calm, rfl⟩)
  · exact same stored
  · exact encoded line calm

end HiddenContent
