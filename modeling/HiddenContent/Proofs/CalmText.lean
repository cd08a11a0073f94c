import HiddenContent.Proofs.StoredText

/-!
# Calm texts

A head whose blob is open waits for the next closing brace. When a hidden directive behind it
takes a closing brace or a line feed away, the stored text is not only a text with tokens in it:
the head may read further than before, and swallow text that was shown. A text is calm when this
cannot happen. The pieces of a calm text, each as it is stored, are the pieces of the stored text.
Hence encoding a calm text a second time changes nothing, and what is shown of the stored text
is what is shown of the text.
-/

namespace HiddenContent

namespace Settings

/-- True when no hidden directive before the first closing brace that stays holds a closing brace
    or a line feed. -/
def keepsBlob (settings : Settings) : List Piece → Bool
  | [] => true
  | .plain c :: rest => c == '}' || settings.keepsBlob rest
  | .form written reading :: rest =>
    if settings.hides reading then
      !written.contains '}' && !written.contains '\n' && settings.keepsBlob rest
    else written.contains '}' || settings.keepsBlob rest

/-- True when every blob that a head leaves open, without being read as a form, is kept. -/
def keepsBlobs (settings : Settings) : List Piece → Bool
  | [] => true
  | .plain c :: rest =>
    (!opensBlob (c :: Piece.textOf rest) || settings.keepsBlob rest) && settings.keepsBlobs rest
  | .form _ _ :: rest => settings.keepsBlobs rest

/-- True when encoding changes no open blob of a text. -/
def isCalm (settings : Settings) (text : Text) : Bool :=
  settings.keepsBlobs (Piece.cut (Reader.all true) text)

/-- What the stored text holds in place of pieces. -/
def storedOf (settings : Settings) (pieces : List Piece) : Text :=
  pieces.flatMap settings.storedPiece

/-- No pieces are stored as the empty text. -/
@[simp] theorem storedOf_nil (settings : Settings) : settings.storedOf [] = [] := rfl

/-- A plain character is stored as it is. -/
@[simp] theorem storedOf_plain (settings : Settings) (c : Char) (rest : List Piece) :
    settings.storedOf (.plain c :: rest) = c :: settings.storedOf rest := rfl

/-- Pieces are stored part by part. -/
@[simp] theorem storedOf_append (settings : Settings) (first second : List Piece) :
    settings.storedOf (first ++ second) = settings.storedOf first ++ settings.storedOf second :=
  List.flatMap_append

/-- Inline encoding writes what the pieces of a text are stored as. -/
theorem encodeInline_eq_storedOf (settings : Settings) (text : Text) :
    settings.encodeInline text = settings.storedOf (Piece.cut (Reader.all true) text) :=
  settings.encodeInline_eq text

/-- A form is stored on its own, before what follows it. -/
theorem storedOf_form (settings : Settings) (written : Text) (reading : Span)
    (rest : List Piece) :
    settings.storedOf (.form written reading :: rest) =
      settings.storedPiece (.form written reading) ++ settings.storedOf rest := rfl

/-- A form that hides is stored as its token. -/
theorem storedPiece_of_hides (settings : Settings) (written : Text) (reading : Span)
    (hides : settings.hides reading = true) :
    settings.storedPiece (.form written reading) =
      settings.token reading.mode (settings.canonicalize reading.blob) := by
  simp [storedPiece, Piece.rewritten, hides]

/-- Any other form is stored as it is written. -/
theorem storedPiece_of_keeps (settings : Settings) (written : Text) (reading : Span)
    (keeps : settings.hides reading = false) :
    settings.storedPiece (.form written reading) = written := by
  simp [storedPiece, Piece.rewritten, keeps]

/-- The span of a token, counted from its own beginning. -/
def tokenSpan (settings : Settings) (mode : Mode) (attributes : Attributes) : Span where
  mode := mode
  action := settings.directiveAction
  start := 0
  stop := (settings.token mode attributes).length
  blob := settings.tokenBlob attributes
  payload := []
  isPlaceholder := true

/-- The piece of the stored text that stands in place of a piece. -/
def storedAs (settings : Settings) : Piece → Piece
  | .plain c => .plain c
  | .form written reading =>
    if settings.hides reading then
      .form (settings.token reading.mode (settings.canonicalize reading.blob))
        (settings.tokenSpan reading.mode (settings.canonicalize reading.blob))
    else .form written reading

/-- The stored piece of a form that hides is its token. -/
theorem storedAs_of_hides (settings : Settings) (written : Text) (reading : Span)
    (hides : settings.hides reading = true) :
    settings.storedAs (.form written reading) =
      .form (settings.token reading.mode (settings.canonicalize reading.blob))
        (settings.tokenSpan reading.mode (settings.canonicalize reading.blob)) := by
  simp [storedAs, hides]

/-- Any other form is its own stored piece. -/
theorem storedAs_of_keeps (settings : Settings) (written : Text) (reading : Span)
    (keeps : settings.hides reading = false) :
    settings.storedAs (.form written reading) = .form written reading := by
  simp [storedAs, keeps]

/-- The characters of a stored piece are what the piece is stored as. -/
theorem text_storedAs (settings : Settings) (piece : Piece) :
    (settings.storedAs piece).text = settings.storedPiece piece := by
  cases piece with
  | plain c => rfl
  | form written reading =>
    cases hides : settings.hides reading <;>
      simp [storedAs, storedPiece, Piece.rewritten, hides, Piece.text]

/-- The characters of stored pieces are what the pieces are stored as. -/
theorem textOf_storedAs (settings : Settings) (pieces : List Piece) :
    Piece.textOf (pieces.map settings.storedAs) = settings.storedOf pieces := by
  rw [Piece.textOf, storedOf]
  rw [List.flatMap_map]
  exact congrArg (List.flatMap · pieces) (funext settings.text_storedAs)

/-! ## Hidden directives and their tokens -/

/-- A hidden form is a directive of the configured action, which is a word therefore. -/
theorem directive_of_hides (settings : Settings) {written : Text} {reading : Span}
    (reads : (Reader.all true).Reads written reading) (hides : settings.hides reading = true) :
    settings.directiveAction.IsWordRun ∧
      ∃ directive : Directive, written = directive.written ∧ reading = directive.span 0 := by
  obtain ⟨raw, acts⟩ := (settings.hides_iff reading).mp hides
  rcases reads.directive_or_token with ⟨directive, rfl, rfl⟩ | ⟨token, _, rfl⟩
  · have same : directive.action = settings.directiveAction := by
      simpa [Settings.acts, Directive.span] using acts
    exact ⟨same ▸ directive.action_word, directive, rfl, rfl⟩
  · simp [Placeholder.span] at raw

/-- The span of a written token is the one that its mode and its attributes give. -/
theorem span_tokenForm (settings : Settings) (sealing : '}' ∈ settings.forbiddenCharacters)
    (word : settings.directiveAction.IsWordRun) (mode : Mode) (attributes : Attributes) :
    (settings.tokenForm sealing word mode attributes).span 0 =
      settings.tokenSpan mode attributes := by
  simp only [Placeholder.span, written_tokenForm, tokenSpan, Nat.zero_add]
  rfl

/-- The token of a directive is read wherever it stands. -/
theorem reads_token (settings : Settings) (sealing : '}' ∈ settings.forbiddenCharacters)
    (word : settings.directiveAction.IsWordRun) (mode : Mode) (attributes : Attributes) :
    (Reader.all true).Reads (settings.token mode attributes)
      (settings.tokenSpan mode attributes) := by
  have reads := Reader.reads_placeholder (settings.tokenForm sealing word mode attributes)
  rwa [written_tokenForm, span_tokenForm] at reads

/-- A blob stands in its directive. -/
theorem blob_subset (directive : Directive) : directive.blob ⊆ directive.written := by
  intro c present
  simp [Directive.written, Directive.afterAction, present]

/-- The token of a sealed directive is sealed: without a closing brace there is no blob. -/
theorem isSealed_token (settings : Settings) (word : settings.directiveAction.IsWordRun)
    (directive : Directive) (intact : IsSealed directive.written) (mode : Mode) :
    IsSealed (settings.token mode (settings.canonicalize directive.blob)) := by
  have noBlob : directive.blob = [] := by
    rcases directive.blob_closed with empty | ⟨inside, braces, _⟩
    · exact empty
    · exact absurd (blob_subset directive (by simp [braces])) intact.1
  constructor
  · rw [noBlob, canonicalize_nil]
    exact settings.brace_not_mem_token word mode
  · exact settings.lineFeed_not_mem_token word mode _ (by simp [noBlob])

/-- A token begins with another character than its directive. -/
theorem token_append_ne (settings : Settings) (directive : Directive) (mode : Mode)
    (attributes : Attributes) (text stored : Text) :
    settings.token mode attributes ++ stored ≠ directive.written ++ text := by
  obtain ⟨rest, begins⟩ := directive.written_eq_cons
  rw [begins, token_eq]
  simp [Span.placeholderOpening]

/-- Pieces are stored as they are written exactly when none of them hides. -/
theorem storedOf_eq_textOf_iff (settings : Settings) {pieces : List Piece}
    (scan : Piece.Scan (Reader.all true) pieces) (pos : Nat) :
    settings.storedOf pieces = Piece.textOf pieces ↔
      ∀ span ∈ Piece.placed pos pieces, settings.hides span = false := by
  induction scan generalizing pos with
  | done => simp [Piece.placed]
  | @pass c rest refused later inductionHypothesis =>
    rw [storedOf_plain, Piece.textOf_plain, List.cons.injEq, inductionHypothesis (pos + 1)]
    simp [Piece.placed]
  | @take written reading rest reads later inductionHypothesis =>
    rw [storedOf_form, Piece.textOf_form]
    have moved : settings.hides (reading.moved pos) = settings.hides reading := rfl
    cases hides : settings.hides reading with
    | true =>
      obtain ⟨_, directive, rfl, _⟩ := settings.directive_of_hides reads hides
      rw [storedPiece_of_hides settings _ _ hides]
      constructor
      · intro same
        exact absurd same (settings.token_append_ne directive _ _ _ _)
      · intro none
        have first := none (reading.moved pos) (by simp [Piece.placed])
        rw [moved, hides] at first
        exact absurd first (by simp)
    | false =>
      rw [storedPiece_of_keeps settings _ _ hides, List.append_cancel_left_eq,
        inductionHypothesis (pos + written.length)]
      simp [Piece.placed, moved, hides]

/-- Tokens bring no line feeds. -/
theorem count_storedOf (settings : Settings) {pieces : List Piece}
    (scan : Piece.Scan (Reader.all true) pieces) :
    (settings.storedOf pieces).count '\n' ≤ (Piece.textOf pieces).count '\n' := by
  induction scan with
  | done => exact Nat.le_refl _
  | @pass c rest refused later inductionHypothesis =>
    rw [storedOf_plain, Piece.textOf_plain, List.count_cons, List.count_cons]
    omega
  | @take written reading rest reads later inductionHypothesis =>
    rw [storedOf_form, Piece.textOf_form, List.count_append, List.count_append]
    cases hides : settings.hides reading with
    | true =>
      obtain ⟨word, directive, rfl, rfl⟩ := settings.directive_of_hides reads hides
      have blob : '\n' ∉ directive.blob := by
        rcases directive.blob_closed with empty | ⟨inside, braces, _, single⟩
        · simp [empty]
        · simp [braces, single rfl]
      have token := settings.lineFeed_not_mem_token word .inline directive.blob blob
      have none := List.count_eq_zero.mpr token
      rw [storedPiece_of_hides settings _ _ hides]
      simp only [Directive.span] at none ⊢
      omega
    | false =>
      rw [storedPiece_of_keeps settings _ _ hides]
      omega

/-- Pieces as they are written and as they are stored are redacted, behind a guard when their first
    blob is kept. -/
theorem redacted_storedOf (settings : Settings) (sealing : '}' ∈ settings.forbiddenCharacters)
    {pieces : List Piece} (scan : Piece.Scan (Reader.all true) pieces) (guarded : Bool)
    (keeps : guarded = true → settings.keepsBlob pieces = true) :
    Redacted guarded (Piece.textOf pieces) (settings.storedOf pieces) := by
  induction scan generalizing guarded with
  | done => exact .done
  | @pass c rest refused later inductionHypothesis =>
    refine .keep c (inductionHypothesis _ ?_)
    intro guards
    obtain ⟨guard, other⟩ := Bool.and_eq_true_iff.mp guards
    have kept := keeps guard
    simp only [keepsBlob, Bool.or_eq_true] at kept
    rcases kept with brace | onward
    · exact absurd (beq_iff_eq.mp brace) (bne_iff_ne.mp other)
    · exact onward
  | @take written reading rest reads later inductionHypothesis =>
    rw [Piece.textOf_form, storedOf_form]
    cases hides : settings.hides reading with
    | true =>
      obtain ⟨word, directive, rfl, rfl⟩ := settings.directive_of_hides reads hides
      rw [storedPiece_of_hides settings _ _ hides, ← settings.written_tokenForm sealing word]
      have parts (guard : guarded = true) :
          IsSealed directive.written ∧ settings.keepsBlob rest = true := by
        have kept := keeps guard
        simp only [keepsBlob, hides, if_true, Bool.and_eq_true, Bool.not_eq_true',
          List.contains_eq_mem, decide_eq_false_iff_not] at kept
        exact ⟨kept.1, kept.2⟩
      refine .replace directive _ ?_ (inductionHypothesis guarded fun guard => (parts guard).2)
      intro guard
      rw [written_tokenForm]
      exact ⟨(parts guard).1, settings.isSealed_token word directive (parts guard).1 _⟩
    | false =>
      rw [storedPiece_of_keeps settings _ _ hides]
      refine Redacted.keepAll written (inductionHypothesis _ ?_)
      intro guards
      obtain ⟨guard, unclosed⟩ := Bool.and_eq_true_iff.mp guards
      have kept := keeps guard
      simp only [keepsBlob, hides, Bool.false_eq_true, if_false, Bool.or_eq_true] at kept
      rcases kept with brace | onward
      · rw [brace] at unclosed
        exact absurd unclosed (by decide)
      · exact onward

/-- The pieces of a calm text, as they are stored, are the walk over the stored text. -/
theorem scan_storedAs (settings : Settings) (sealing : '}' ∈ settings.forbiddenCharacters)
    {pieces : List Piece} (scan : Piece.Scan (Reader.all true) pieces)
    (calm : settings.keepsBlobs pieces = true) :
    Piece.Scan (Reader.all true) (pieces.map settings.storedAs) := by
  induction scan with
  | done => exact .done
  | @pass c rest refused later inductionHypothesis =>
    simp only [keepsBlobs, Bool.and_eq_true, Bool.or_eq_true, Bool.not_eq_true'] at calm
    have redacted := settings.redacted_storedOf sealing later (opensBlob (c :: Piece.textOf rest))
      (by
        intro opens
        rcases calm.1 with closed | kept
        · exact absurd opens (by simp [closed])
        · exact kept)
    refine .pass ?_ (inductionHypothesis calm.2)
    rw [textOf_storedAs]
    exact redacted.refused refused
  | @take written reading rest reads later inductionHypothesis =>
    rw [List.map_cons]
    cases hides : settings.hides reading with
    | true =>
      obtain ⟨word, _⟩ := settings.directive_of_hides reads hides
      rw [storedAs_of_hides settings _ _ hides]
      exact .take (settings.reads_token sealing word _ _) (inductionHypothesis calm)
    | false =>
      rw [storedAs_of_keeps settings _ _ hides]
      exact .take reads (inductionHypothesis calm)

/-- The pieces of the stored text are the pieces of a calm text, each as it is stored. -/
theorem cut_encodeInline (settings : Settings) (sealing : '}' ∈ settings.forbiddenCharacters)
    (text : Text) (calm : settings.isCalm text = true) :
    Piece.cut (Reader.all true) (settings.encodeInline text) =
      (Piece.cut (Reader.all true) text).map settings.storedAs := by
  have scan := (Piece.scan_cut (Reader.isLocal_all true) text).1
  have stored := Piece.cut_textOf (settings.scan_storedAs sealing scan calm)
  rw [textOf_storedAs] at stored
  rw [encodeInline_eq]
  exact stored

/-- A stored piece is stored as it is. -/
theorem storedPiece_storedAs (settings : Settings) (piece : Piece) :
    settings.storedPiece (settings.storedAs piece) = settings.storedPiece piece := by
  cases piece with
  | plain c => rfl
  | form written reading =>
    cases hides : settings.hides reading with
    | true =>
      have token : settings.hides (settings.tokenSpan reading.mode
          (settings.canonicalize reading.blob)) = false := by simp [Settings.hides, tokenSpan]
      simp [storedAs, hides, storedPiece, Piece.rewritten, token]
    | false => simp [storedAs, hides]

/-- What is shown of a stored piece is what is shown of the piece. -/
theorem shownPiece_storedAs (settings : Settings) (piece : Piece) :
    settings.shownPiece (settings.storedAs piece) = settings.shownPiece piece := by
  cases piece with
  | plain c => rfl
  | form written reading =>
    cases hides : settings.hides reading with
    | true =>
      have acts := ((settings.hides_iff reading).mp hides).2
      have token : settings.acts (settings.tokenSpan reading.mode
          (settings.canonicalize reading.blob)).action = true := by
        simp [Settings.acts, tokenSpan]
      simp [storedAs, hides, shownPiece, Piece.rewritten, token, acts]
    | false => simp [storedAs, hides]

/-- What is shown of stored pieces is what is shown of the pieces. -/
theorem shownOf_storedAs (settings : Settings) (pieces : List Piece) :
    settings.shownOf (pieces.map settings.storedAs) = settings.shownOf pieces := by
  rw [shownOf, List.flatMap_map]
  exact congrArg (List.flatMap · pieces) (funext settings.shownPiece_storedAs)

/-- Encoding a calm text once is encoding it for good. -/
theorem encodeInline_encodeInline_of_calm (settings : Settings)
    (sealing : '}' ∈ settings.forbiddenCharacters) (text : Text)
    (calm : settings.isCalm text = true) :
    settings.encodeInline (settings.encodeInline text) = settings.encodeInline text := by
  rw [settings.encodeInline_eq (settings.encodeInline text),
    settings.cut_encodeInline sealing text calm, List.flatMap_map, settings.encodeInline_eq text]
  exact congrArg (List.flatMap · _) (funext settings.storedPiece_storedAs)

end Settings

end HiddenContent
