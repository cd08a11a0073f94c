import HiddenContent.Proofs.Lexemes
import HiddenContent.Proofs.Walk

/-!
# Highlighted modes are tokens

Without a marker a source is never inside a payload, and the only rule that names the mode of a
token is the rule for tokens. It finds something exactly where a token is read: braces end at the
first closing brace in both, and where they do not close, neither goes on. The rules for plain text
never pass over a bracket behind which a token is read.

So what one rule finds is a beginning of the pieces of the text, with as many modes among its parts
as there are tokens among these pieces. Along a whole source the lexemes that name a mode are the
tokens, one for each and in order.
-/

namespace HiddenContent

namespace Highlight

/-- The lexemes that name the mode of a token. -/
def decorators (lexemes : List Lexeme) : List Lexeme :=
  lexemes.filter fun lexeme => lexeme.style == .decorator

/-- The lexeme that names the mode of a token: it stands behind the bracket, the action and the
    hyphen. -/
def decoratorOf (span : Span) : Lexeme :=
  ⟨span.start + 1 + span.action.length + 1, .decorator, span.mode.word⟩

/-- The decorators of lexemes are found part by part. -/
theorem decorators_append (first second : List Lexeme) :
    decorators (first ++ second) = decorators first ++ decorators second :=
  List.filter_append first second

/-! ## The styles of attributes -/

/-- The lexemes of parts one after the other. -/
theorem lexemes_append (start : Nat) (first second : List (Style × Text)) :
    lexemes start (first ++ second) =
      lexemes start first ++ lexemes (start + (partsText first).length) second := by
  induction first generalizing start with
  | nil => rfl
  | cons part rest inductionHypothesis =>
    obtain ⟨style, value⟩ := part
    simp [lexemes, inductionHypothesis, Nat.add_assoc]

/-- A lexeme has the style of its part. -/
theorem style_of_mem_lexemes {start : Nat} {parts : List (Style × Text)} {lexeme : Lexeme}
    (member : lexeme ∈ lexemes start parts) : ∃ part ∈ parts, lexeme.style = part.1 := by
  induction parts generalizing start with
  | nil => simp [lexemes] at member
  | cons part rest inductionHypothesis =>
    obtain ⟨style, value⟩ := part
    rcases List.mem_append.mp member with here | later
    · split at here
      · simp at here
      · rw [List.mem_singleton.mp here]
        exact ⟨(style, value), List.mem_cons_self, rfl⟩
    · obtain ⟨found, inRest, same⟩ := inductionHypothesis later
      exact ⟨found, List.mem_cons_of_mem _ inRest, same⟩

/-- Parts of other styles name no mode. -/
theorem decorators_lexemes_eq_nil {start : Nat} {parts : List (Style × Text)}
    (others : ∀ part ∈ parts, part.1 ≠ .decorator) : decorators (lexemes start parts) = [] := by
  rw [decorators, List.filter_eq_nil_iff]
  intro lexeme member
  obtain ⟨part, present, same⟩ := style_of_mem_lexemes member
  simpa [same] using others part present

/-- A rule none of whose parts names a mode. -/
def Rule.IsUndecorated (rule : Rule) : Prop :=
  ∀ lineStart text found, rule lineStart text = some found →
    ∀ part ∈ found.parts, part.1 ≠ .decorator

/-- A rule for a run of characters makes no decorator unless its style is that of one. -/
theorem isUndecorated_run (belongs : Char → Bool) (style : Style) (state : State)
    (other : style ≠ .decorator) : (run belongs style state).IsUndecorated := by
  intro lineStart text found finds
  simp only [run, Option.ite_none_left_eq_some, Option.some.injEq] at finds
  rw [← finds.2]
  simpa using other

/-- A rule for one character makes no decorator unless its style is that of one. -/
theorem isUndecorated_single (belongs : Char → Bool) (style : Style) (state : State)
    (other : style ≠ .decorator) : (single belongs style state).IsUndecorated := by
  intro lineStart text found finds
  cases text with
  | nil => simp [single] at finds
  | cons c rest =>
    simp only [single, Option.ite_none_right_eq_some, Option.some.injEq] at finds
    rw [← finds.2]
    simpa using other

/-- The rule for an assignment makes no decorator. -/
theorem isUndecorated_assignment : Rule.IsUndecorated assignment := by
  intro lineStart text found finds
  simp only [assignment] at finds
  split at finds
  · simp only [Option.ite_none_right_eq_some, Option.some.injEq] at finds
    rw [← finds.2]
    simp
  · simp at finds

/-- No rule for attributes makes a decorator. -/
theorem isUndecorated_attributeRules : ∀ rule ∈ attributeRules, rule.IsUndecorated := by
  intro rule member
  simp only [attributeRules, List.mem_cons, List.not_mem_nil, or_false] at member
  rcases member with rfl | rfl | rfl | rfl | rfl
  · exact isUndecorated_single _ _ _ (by decide)
  · exact isUndecorated_assignment
  · exact isUndecorated_single _ _ _ (by decide)
  · exact isUndecorated_run _ _ _ (by decide)
  · exact isUndecorated_run _ _ _ (by decide)

/-- Rules that name no mode cut a text into lexemes that name none. -/
theorem Lexed.undecorated {rules : State → List Rule} {state : State} {before text : Text}
    {result : List Lexeme} (others : ∀ state, ∀ rule ∈ rules state, rule.IsUndecorated)
    (lexed : Lexed rules state before text result) : decorators result = [] := by
  induction lexed with
  | done => rfl
  | @found state before text taken found later first whole onward inductionHypothesis =>
    obtain ⟨rule, member, finds⟩ := List.exists_of_findSome?_eq_some first
    rw [decorators_append, inductionHypothesis,
      decorators_lexemes_eq_nil (others state rule member _ text found finds), List.append_nil]
  | unfound nothing onward inductionHypothesis =>
    rw [decorators_append, inductionHypothesis, List.append_nil]
    apply decorators_lexemes_eq_nil
    rw [Highlight.unfound]
    split <;> simp

/-- No part of attributes names a mode. -/
theorem decorators_attributeParts (start : Nat) (blob : Text) :
    decorators (lexemes start (attributeParts blob)) = [] := by
  have lexed : Lexed (fun _ => attributeRules) .attributes [] blob (ofAttributes blob) :=
    isComplete_attributeRules.lexed_cutBy .attributes [] blob
  have none := lexed.undecorated fun _ => isUndecorated_attributeRules
  rw [decorators, List.filter_eq_nil_iff] at none
  apply decorators_lexemes_eq_nil
  intro part member
  obtain ⟨lexeme, present, rfl⟩ := List.mem_map.mp member
  simpa using none lexeme present

/-! ## The rule for tokens -/

/-- A mode word is read wherever it stands. -/
theorem modeWord?_append (mode : Mode) (rest : Text) :
    modeWord? (mode.word ++ rest) = some (mode.word, rest) := by
  cases mode <;> simp [modeWord?, Text.after?, Mode.word, List.isPrefixOf]

/-- A blob in front of something else than a brace is found as it is. -/
theorem braces_blob {blob rest : Text} (closed : Span.IsBlob true blob)
    (opens : Span.Opens blob rest) : braces isInside (blob ++ rest) = (blob, rest) := by
  rcases closed with rfl | ⟨inside, rfl, unclosed, _⟩
  · have absent := opens rfl
    rw [List.nil_append]
    unfold braces
    split
    · simp at absent
    · rfl
  · have holds : ∀ c ∈ inside, isInside c = true := by
      intro c present
      simpa [isInside] using fun same : c = '}' => unclosed (same ▸ present)
    have stops : Text.StopsAt isInside ('}' :: rest) := by
      simp [Text.stopsAt_cons, isInside]
    have whole : '{' :: (inside ++ ['}']) ++ rest = '{' :: (inside ++ '}' :: rest) := by simp
    rw [whole]
    simp only [braces, Text.takeWhile_run isInside inside _ holds stops,
      Text.dropWhile_run isInside inside _ holds stops]
    rfl

/-- The rule for tokens finds a written token. -/
theorem token_written (placeholder : Placeholder) (rest : Text) (lineStart : Bool) :
    token lineStart (placeholder.written ++ rest) =
      some { parts := tokenParts placeholder, rest, state := .root } := by
  have bracket : Text.after? ['['] (placeholder.written ++ rest) =
      some (placeholder.action ++ '-' :: (placeholder.mode.word ++
        (placeholder.blob ++ ']' :: rest))) :=
    (Text.after?_eq_some_iff _ _ _).mpr (by simp [placeholder.written_append])
  have named := (Span.word?_eq_some_iff _ placeholder.action ('-' :: (placeholder.mode.word ++
      (placeholder.blob ++ ']' :: rest)))).mpr
    ⟨rfl, placeholder.action_word, (Text.stopsAt_cons _ _ _).mpr (by decide)⟩
  have hyphen : Text.after? ['-'] ('-' :: (placeholder.mode.word ++
      (placeholder.blob ++ ']' :: rest))) =
      some (placeholder.mode.word ++ (placeholder.blob ++ ']' :: rest)) :=
    (Text.after?_eq_some_iff _ _ _).mpr rfl
  have blob : braces isInside (placeholder.blob ++ ']' :: rest) = (placeholder.blob, ']' :: rest) :=
    braces_blob placeholder.blob_closed (by simp [Span.Opens])
  have closing : Text.after? [']'] (']' :: rest) = some rest :=
    (Text.after?_eq_some_iff _ _ _).mpr rfl
  simp only [token, bracket, named, hyphen, modeWord?_append, blob, closing, Option.bind_some,
    Option.map_some]
  rfl

/-- Where the rule for tokens finds nothing, no token is read. -/
theorem tokens_eq_none {lineStart : Bool} {text : Text} (nothing : token lineStart text = none) :
    Reader.tokens text = none := by
  cases read : Reader.tokens text with
  | none => rfl
  | some reading =>
    obtain ⟨placeholder, rest, rfl, _⟩ := Placeholder.exists_of_read text 0 reading read
    rw [token_written] at nothing
    exact absurd nothing (by simp)

/-- Of the lexemes of a token one names its mode, at its place. -/
theorem decorators_tokenParts (placeholder : Placeholder) (start : Nat) :
    decorators (lexemes start (tokenParts placeholder)) =
      [decoratorOf ((placeholder.span 0).moved start)] := by
  have named : placeholder.mode.word ≠ [] := by cases placeholder.mode <;> decide
  have closing : ∀ pos, decorators (lexemes pos [(.punctuation, [']'])]) = [] :=
    fun pos => decorators_lexemes_eq_nil (by simp)
  simp only [tokenParts, lexemes_append, decorators_append, decorators_attributeParts, closing,
    List.append_nil]
  rw [decorators_lexemes_eq_nil (by simp), List.nil_append]
  simp [decorators, lexemes, named, decoratorOf, Placeholder.span, Span.moved]
  omega

/-! ## Sources without a marker -/

/-- A text in which no marker stands. -/
def Unmarked (text : Text) : Prop := ¬Span.marker <:+: text

/-- No marker stands in the last part of a text without one. -/
theorem Unmarked.right {first second : Text} (unmarked : Unmarked (first ++ second)) :
    Unmarked second :=
  fun inside => unmarked (inside.trans (List.suffix_append first second).isInfix)

/-- Nothing comes after a marker where none stands. -/
theorem after?_marker_eq_none {text : Text} (unmarked : Unmarked text) :
    Text.after? Span.marker text = none := by
  cases taken : Text.after? Span.marker text with
  | none => rfl
  | some rest =>
    rw [(Text.after?_eq_some_iff _ _ _).mp taken] at unmarked
    exact absurd (List.prefix_append _ _).isInfix unmarked

/-- Without a marker only the rules for tokens and for plain text can find something. -/
theorem firstFound?_root {text : Text} (unmarked : Unmarked text) (lineStart : Bool) :
    firstFound? rootRules lineStart text =
      firstFound? [token, run isPlain .text .root, single (· == '\n') .text .root,
        single (· != '\n') .text .root] lineStart text := by
  have here := after?_marker_eq_none unmarked
  have indented : Text.after? Span.marker (text.dropWhile Text.isSpacing) = none := by
    apply after?_marker_eq_none
    rw [← List.takeWhile_append_dropWhile (p := Text.isSpacing) (l := text)] at unmarked
    exact unmarked.right
  have opener : openerLine lineStart text = none := by
    simp [openerLine, Span.inlineHead?, indented]
  have closer : closerLine lineStart text = none := by simp [closerLine, indented]
  have inline : inlineHead lineStart text = none := by
    simp [inlineHead, Span.inlineHead?, here]
  simp only [firstFound?, rootRules, List.findSome?_cons, opener, closer, inline]

/-- What a rule finds is the beginning of the pieces of a text, and its lexemes name the modes of
    the tokens among these. -/
structure Found.Matches (found : Found) (text : Text) : Prop where
  state : found.state = .root
  pieces : ∃ pieces,
    Piece.cut Reader.tokens text = pieces ++ Piece.cut Reader.tokens found.rest ∧
    Piece.textOf pieces = partsText found.parts ∧
    ∀ start, decorators (lexemes start found.parts) = (Piece.placed start pieces).map decoratorOf

/-- Plain text matches pieces that are plain. -/
theorem matches_plain (run rest : Text)
    (cut : Piece.cut Reader.tokens (run ++ rest) =
      run.map Piece.plain ++ Piece.cut Reader.tokens rest) :
    Found.Matches { parts := [(.text, run)], rest, state := .root } (run ++ rest) where
  state := rfl
  pieces := by
    refine ⟨run.map Piece.plain, cut, by simp [Piece.textOf_plains], ?_⟩
    intro start
    rw [Piece.placed_plains, List.map_nil]
    exact decorators_lexemes_eq_nil (by simp)

/-- No token is read at another character than a bracket. -/
theorem tokens_eq_none_of_ne {c : Char} (other : c ≠ '[') (rest : Text) :
    Reader.tokens (c :: rest) = none := by
  cases read : Reader.tokens (c :: rest) with
  | none => rfl
  | some reading =>
    obtain ⟨placeholder, more, same, _⟩ := Placeholder.exists_of_read _ 0 reading read
    rw [placeholder.written_append, List.cons.injEq] at same
    exact absurd same.1 other

/-- Whatever is found in front of a text without a marker matches it. -/
theorem matches_of_first {text : Text} {found : Found} {lineStart : Bool}
    (unmarked : Unmarked text)
    (first : firstFound? rootRules lineStart text = some found) : found.Matches text := by
  rw [firstFound?_root unmarked] at first
  cases finds : token lineStart text with
  | some read =>
    obtain ⟨placeholder, rest, rfl, rfl⟩ := exists_of_token finds
    simp only [firstFound?, List.findSome?_cons, finds, Option.some.injEq] at first
    subst first
    refine ⟨rfl, [.form placeholder.written (placeholder.span 0)],
      Piece.cut_of_reads (Reader.tokens_reads placeholder) rest, ?_, ?_⟩
    · simp [partsText_tokenParts]
    · exact decorators_tokenParts placeholder
  | none =>
    have refused := tokens_eq_none finds
    simp only [firstFound?, List.findSome?_cons, finds] at first
    cases plain : run isPlain .text .root lineStart text with
    | some read =>
      simp only [plain, Option.some.injEq] at first
      subst first
      simp only [run, Option.ite_none_left_eq_some, Option.some.injEq] at plain
      rw [← plain.2]
      have unopened : ∀ c ∈ text.takeWhile isPlain, ∀ rest, Reader.tokens (c :: rest) = none := by
        intro c present
        have holds := List.mem_takeWhile_imp present
        exact tokens_eq_none_of_ne (by rintro rfl; exact absurd holds (by decide))
      have matched := matches_plain _ _
        (Piece.cut_plains_append (text.takeWhile isPlain) (text.dropWhile isPlain) unopened)
      rwa [List.takeWhile_append_dropWhile] at matched
    | none =>
      -- what is left is one character: a colon, a line feed, or a bracket that opens no token
      cases text with
      | nil => simp [plain, single] at first
      | cons c rest =>
        simp only [plain] at first
        have alone : { parts := [(.text, [c])], rest, state := .root } = found := by
          by_cases feed : c = '\n' <;> simpa [single, feed] using first
        rw [← alone]
        exact matches_plain [c] rest (Piece.cut_of_refused refused)

/-- The lexemes from any place on name the modes of the tokens from there on.

The induction is on the cut. What is left stays outside a payload and without a marker. -/
theorem Lexed.decorators_eq {state : State} {before text : Text} {result : List Lexeme}
    (lexed : Lexed State.rules state before text result) (outside : state = .root)
    (unmarked : Unmarked text) :
    decorators result =
      (Piece.placed before.length (Piece.cut Reader.tokens text)).map decoratorOf := by
  induction lexed with
  | done => rfl
  | @found state before text taken found later first whole onward inductionHypothesis =>
    subst outside
    have matched := matches_of_first unmarked first
    obtain ⟨pieces, cut, textOf, named⟩ := matched.pieces
    have parts : partsText found.parts = taken :=
      List.append_cancel_right ((isComplete_rules.covers_first first).whole.symm.trans whole)
    have rest : Unmarked found.rest := (whole ▸ unmarked).right
    rw [decorators_append, named, inductionHypothesis matched.state rest, cut,
      Piece.placed_append, List.map_append, textOf, parts, List.length_append]
  | @unfound state before c rest _ nothing _ _ =>
    obtain ⟨found, first⟩ := isComplete_rules.exists_first state (beginsLine before) c rest
    simp [nothing] at first

/-- In a source without a marker the lexemes that name a mode are the tokens, one for each and in
    order: each is the word of the mode, behind the bracket, the action and the hyphen.

    Proof: the induction is on the cut of the source. What one rule finds is a beginning of the
    pieces of the text, with as many modes as there are tokens among these pieces. -/
theorem decorators_eq_placeholders (source : Text) (unmarked : ¬Span.marker <:+: source) :
    (ofSource source).filter (fun lexeme => lexeme.style == .decorator) =
      (Tokens.placeholders source).map fun span =>
        ⟨span.start + 1 + span.action.length + 1, .decorator, span.mode.word⟩ := by
  have lexed : Lexed State.rules .root [] source (ofSource source) :=
    isComplete_rules.lexed_cutBy .root [] source
  rw [Tokens.placeholders_eq_placed]
  exact lexed.decorators_eq rfl unmarked

/-- A doubled bracket, a token inside braces, braces over two lines, and braces that do not
    close. -/
theorem decorators_eq_placeholders_nested :
    ¬Span.marker <:+:
        "[[a-inline\x7b[b-block]\x7d]\n[c-block\x7bx\ny\x7d][d-inline\x7b[e-block]".toList ∧
      (ofSource
          "[[a-inline\x7b[b-block]\x7d]\n[c-block\x7bx\ny\x7d][d-inline\x7b[e-block]".toList).filter
          (fun lexeme => lexeme.style == .decorator) =
        [⟨4, .decorator, "inline".toList⟩, ⟨26, .decorator, "block".toList⟩,
          ⟨50, .decorator, "block".toList⟩] := by
  have unmarked : ¬Span.marker <:+:
      "[[a-inline\x7b[b-block]\x7d]\n[c-block\x7bx\ny\x7d][d-inline\x7b[e-block]".toList :=
    (Text.cut?_isSome_iff _ _).not.mp (by decide)
  refine ⟨unmarked, ?_⟩
  rw [decorators_eq_placeholders _ unmarked, Tokens.placeholders_eq_placed]
  decide

end Highlight

end HiddenContent
