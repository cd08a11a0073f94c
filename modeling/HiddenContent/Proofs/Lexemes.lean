import HiddenContent.Highlight
import HiddenContent.Proofs.Forms

/-!
# Highlighting loses nothing

`Lexed` says what it means to cut a text by rules, without any bound: the first rule of the state
that finds something is taken and the cut goes on behind it, a character for which no rule does is
an error, and the cut is over where nothing is left. So a text has its lexemes when it is cut in
finitely many steps.

Every rule covers what it finds: its parts stand one after the other in front of the text, they
are not all empty, and none is an error. In each state some rule finds something in front of any
character. From these two facts alone the lexemes are the text, in order and without gaps, and
there is no error.
-/

namespace HiddenContent

namespace Highlight

/-! ## Parts and their lexemes -/

/-- No parts hold no characters. -/
@[simp] theorem partsText_nil : partsText [] = [] := rfl

/-- The characters of parts, one after the other. -/
@[simp] theorem partsText_cons (style : Style) (value : Text) (rest : List (Style × Text)) :
    partsText ((style, value) :: rest) = value ++ partsText rest := rfl

/-- The characters of parts that follow one another. -/
@[simp] theorem partsText_append (first second : List (Style × Text)) :
    partsText (first ++ second) = partsText first ++ partsText second :=
  List.flatMap_append

/-- The characters of lexemes. -/
def lexemesText (lexemes : List Lexeme) : Text := lexemes.flatMap Lexeme.value

/-- The characters of lexemes that follow one another. -/
theorem lexemesText_append (first second : List Lexeme) :
    lexemesText (first ++ second) = lexemesText first ++ lexemesText second :=
  List.flatMap_append

/-- The lexemes of parts have the characters of the parts. -/
theorem lexemesText_lexemes (start : Nat) (parts : List (Style × Text)) :
    lexemesText (lexemes start parts) = partsText parts := by
  induction parts generalizing start with
  | nil => rfl
  | cons part rest inductionHypothesis =>
    obtain ⟨style, value⟩ := part
    rw [lexemes, lexemesText_append, inductionHypothesis, partsText_cons]
    split
    · rename_i empty
      rw [List.isEmpty_iff.mp empty]
      rfl
    · simp [lexemesText]

/-- Lexemes that stand one after the other from a position on. -/
def Placed (start : Nat) : List Lexeme → Prop
  | [] => True
  | lexeme :: rest => lexeme.start = start ∧ Placed (start + lexeme.value.length) rest

/-- Lexemes are in their places when the first ones are, and the others behind the characters of
    these. -/
theorem placed_append (start : Nat) (first second : List Lexeme) :
    Placed start (first ++ second) ↔
      Placed start first ∧ Placed (start + (lexemesText first).length) second := by
  induction first generalizing start with
  | nil => simp [Placed, lexemesText]
  | cons lexeme rest inductionHypothesis =>
    have size : (lexemesText (lexeme :: rest)).length =
        lexeme.value.length + (lexemesText rest).length := by simp [lexemesText]
    rw [List.cons_append, Placed, Placed, inductionHypothesis, size, Nat.add_assoc, and_assoc]

/-- The lexemes of parts are in their places: a part without characters makes none. -/
theorem placed_lexemes (start : Nat) (parts : List (Style × Text)) :
    Placed start (lexemes start parts) := by
  induction parts generalizing start with
  | nil => trivial
  | cons part rest inductionHypothesis =>
    obtain ⟨style, value⟩ := part
    rw [lexemes]
    have later := inductionHypothesis (start + value.length)
    split
    · rename_i empty
      rw [List.isEmpty_iff.mp empty] at later ⊢
      exact later
    · exact ⟨rfl, later⟩

/-- A lexeme starts behind the characters of those before it. -/
theorem Placed.start_eq {start : Nat} {before after : List Lexeme} {lexeme : Lexeme}
    (placed : Placed start (before ++ lexeme :: after)) :
    lexeme.start = start + (lexemesText before).length :=
  ((placed_append start before (lexeme :: after)).mp placed).2.1

/-- A lexeme holds something and is no error. -/
def Lexeme.IsProper (lexeme : Lexeme) : Prop := lexeme.value ≠ [] ∧ lexeme.style ≠ .error

/-- The lexemes of parts that are no errors are proper. -/
theorem isProper_lexemes (start : Nat) (parts : List (Style × Text))
    (styled : ∀ part ∈ parts, part.1 ≠ .error) :
    ∀ lexeme ∈ lexemes start parts, lexeme.IsProper := by
  induction parts generalizing start with
  | nil => simp [lexemes]
  | cons part rest inductionHypothesis =>
    obtain ⟨style, value⟩ := part
    obtain ⟨first, others⟩ := List.forall_mem_cons.mp styled
    intro lexeme member
    rcases List.mem_append.mp member with here | later
    · split at here
      · simp at here
      · rename_i inhabited
        rw [List.mem_singleton.mp here]
        exact ⟨by simpa using inhabited, first⟩
    · exact inductionHypothesis _ others lexeme later

/-! ## Cutting by rules -/

/-- True at the beginning of a text and after a line feed. -/
def beginsLine (before : Text) : Bool := before.getLast?.all (· == '\n')

/-- The lexemes of a text by rules, when `before` stands in front of it. -/
inductive Lexed (rules : State → List Rule) : State → (before text : Text) → List Lexeme → Prop
  where
  | done {state : State} {before : Text}
      (nothing : firstFound? (rules state) (beginsLine before) [] = none) :
      Lexed rules state before [] []
  | found {state : State} {before text taken : Text} {found : Found} {later : List Lexeme}
      (first : firstFound? (rules state) (beginsLine before) text = some found)
      (whole : text = taken ++ found.rest)
      (onward : Lexed rules found.state (before ++ taken) found.rest later) :
      Lexed rules state before text (lexemes before.length found.parts ++ later)
  | unfound {state : State} {before : Text} {c : Char} {rest : Text} {later : List Lexeme}
      (nothing : firstFound? (rules state) (beginsLine before) (c :: rest) = none)
      (onward : Lexed rules (unfound state c rest).state (before ++ [c]) rest later) :
      Lexed rules state before (c :: rest)
        (lexemes before.length (unfound state c rest).parts ++ later)

/-- The parts of what is found stand in front of the text and hold something, and none of them is
    an error. -/
structure Found.Covers (found : Found) (text : Text) : Prop where
  whole : text = partsText found.parts ++ found.rest
  inhabited : partsText found.parts ≠ []
  styled : ∀ part ∈ found.parts, part.1 ≠ .error

/-- Whatever a rule finds is covered by its parts. -/
def Rule.Covers (rule : Rule) : Prop :=
  ∀ lineStart text found, rule lineStart text = some found → found.Covers text

/-- Rules that cover what they find, and of which one finds something in front of any character. -/
structure IsComplete (rules : State → List Rule) : Prop where
  covers : ∀ state, ∀ rule ∈ rules state, rule.Covers
  finds : ∀ state lineStart c rest, ∃ rule ∈ rules state, rule lineStart (c :: rest) ≠ none

namespace IsComplete

variable {rules : State → List Rule}

/-- What the first rule that finds something finds is covered by its parts. -/
theorem covers_first (complete : IsComplete rules) {state : State} {lineStart : Bool}
    {text : Text} {found : Found} (first : firstFound? (rules state) lineStart text = some found) :
    found.Covers text := by
  obtain ⟨rule, member, finds⟩ := List.exists_of_findSome?_eq_some first
  exact complete.covers state rule member lineStart text found finds

/-- Nothing is found where nothing is left. -/
theorem first_nil (complete : IsComplete rules) (state : State) (lineStart : Bool) :
    firstFound? (rules state) lineStart [] = none := by
  cases first : firstFound? (rules state) lineStart [] with
  | none => rfl
  | some found =>
    have covered := complete.covers_first first
    exact absurd (List.append_eq_nil_iff.mp covered.whole.symm).1 covered.inhabited

/-- Something is found in front of any character. -/
theorem exists_first (complete : IsComplete rules) (state : State) (lineStart : Bool) (c : Char)
    (rest : Text) : ∃ found, firstFound? (rules state) lineStart (c :: rest) = some found := by
  obtain ⟨rule, member, finds⟩ := complete.finds state lineStart c rest
  cases first : firstFound? (rules state) lineStart (c :: rest) with
  | none => exact absurd (List.findSome?_eq_none_iff.mp first rule member) finds
  | some found => exact ⟨found, rfl⟩

/-- What follows a text that holds something decides alone whether a line begins behind it. -/
theorem beginsLine_append (before taken : Text) (inhabited : taken ≠ []) :
    beginsLine (before ++ taken) = (taken.getLast? == some '\n') := by
  obtain ⟨others, last, rfl⟩ := List.eq_nil_or_concat taken |>.resolve_left inhabited
  simp [beginsLine]

/-- The cut follows the rules to the end of the text.

The induction is on the length of what is left, which every step makes shorter. -/
theorem lexed_cutBy (complete : IsComplete rules) (state : State) (before text : Text) :
    Lexed rules state before text (cutBy rules state (beginsLine before) before.length text) := by
  induction left : text.length using Nat.strong_induction_on generalizing state before text with
  | _ bound inductionHypothesis =>
    cases text with
    | nil =>
      rw [cutBy]
      exact .done (complete.first_nil state _)
    | cons c rest =>
      obtain ⟨found, first⟩ := complete.exists_first state (beginsLine before) c rest
      have covered := complete.covers_first first
      have inhabited := List.length_pos_iff.mpr covered.inhabited
      have size := congrArg List.length covered.whole
      rw [List.length_append] at size
      have shorter : found.rest.length < (c :: rest).length := by omega
      have onward := inductionHypothesis found.rest.length (by omega) found.state
        (before ++ partsText found.parts) found.rest rfl
      rw [beginsLine_append before _ covered.inhabited, List.length_append] at onward
      have behind : (c :: rest).length - found.rest.length = (partsText found.parts).length := by
        omega
      rw [cutBy, first, Option.getD_some, dif_pos shorter, behind]
      exact .found first covered.whole onward

end IsComplete

namespace Lexed

variable {rules : State → List Rule} {state : State} {before text : Text} {result : List Lexeme}

/-- A text is cut in one way only. -/
theorem unique (lexed : Lexed rules state before text result) {other : List Lexeme}
    (another : Lexed rules state before text other) : result = other := by
  induction lexed generalizing other with
  | done nothing =>
    cases another with
    | done => rfl
    | found first => simp [nothing] at first
  | @found state before text taken found later first whole onward inductionHypothesis =>
    cases another with
    | done nothing => simp [nothing] at first
    | @found _ _ _ alsoTaken same _ alsoFirst alsoWhole alsoOnward =>
      rw [first, Option.some.injEq] at alsoFirst
      subst alsoFirst
      rw [whole] at alsoWhole
      rw [← List.append_cancel_right alsoWhole] at alsoOnward
      rw [inductionHypothesis alsoOnward]
    | unfound nothing => simp [nothing] at first
  | unfound nothing onward inductionHypothesis =>
    cases another with
    | found first => simp [nothing] at first
    | unfound _ alsoOnward => rw [inductionHypothesis alsoOnward]

/-- Complete rules cut a text into lexemes that are the text, stand one after the other, hold
    something each, and are no errors. -/
theorem lossless (complete : IsComplete rules) (lexed : Lexed rules state before text result) :
    lexemesText result = text ∧ Placed before.length result ∧
      ∀ lexeme ∈ result, lexeme.IsProper := by
  induction lexed with
  | done => exact ⟨rfl, trivial, by simp⟩
  | @found state before text taken found later first whole onward inductionHypothesis =>
    obtain ⟨same, placed, proper⟩ := inductionHypothesis
    have covered := complete.covers_first first
    have both : partsText found.parts ++ found.rest = taken ++ found.rest := by
      rw [← covered.whole, whole]
    have parts : partsText found.parts = taken := List.append_cancel_right both
    refine ⟨?_, ?_, ?_⟩
    · rw [lexemesText_append, lexemesText_lexemes, same, ← covered.whole]
    · rw [placed_append, lexemesText_lexemes, parts, ← List.length_append]
      exact ⟨placed_lexemes _ _, placed⟩
    · exact List.forall_mem_append.mpr ⟨isProper_lexemes _ _ covered.styled, proper⟩
  | @unfound state before c rest _ nothing _ _ =>
    obtain ⟨found, first⟩ := complete.exists_first state (beginsLine before) c rest
    simp [nothing] at first

end Lexed

/-! ## What the rules cover -/

/-- A rule for a run of characters covers what it finds. -/
theorem covers_run (belongs : Char → Bool) (style : Style) (state : State)
    (proper : style ≠ .error) : (run belongs style state).Covers := by
  intro lineStart text found finds
  simp only [run] at finds
  split at finds
  · simp at finds
  · rename_i inhabited
    rw [Option.some.injEq] at finds
    subst finds
    exact ⟨by simp [List.takeWhile_append_dropWhile], by simpa using inhabited, by simpa⟩

/-- A rule for one character covers what it finds. -/
theorem covers_single (belongs : Char → Bool) (style : Style) (state : State)
    (proper : style ≠ .error) : (single belongs style state).Covers := by
  intro lineStart text found finds
  simp only [single] at finds
  split at finds
  · simp at finds
  · split at finds
    · rw [Option.some.injEq] at finds
      subst finds
      exact ⟨by simp, by simp, by simpa⟩
    · simp at finds

/-- The rule for an assignment covers what it finds: the name, the blanks around the separator, and
    the value. -/
theorem covers_assignment : Rule.Covers assignment := by
  intro lineStart text found finds
  simp only [assignment] at finds
  split at finds
  · rename_i c rest separated
    split at finds
    · rename_i named
      rw [Option.some.injEq] at finds
      subst finds
      refine ⟨?_, ?_, by simp⟩
      · have name := List.takeWhile_append_dropWhile (p := isNameCharacter) (l := text)
        have blanks := List.takeWhile_append_dropWhile (p := Text.isBlank)
          (l := text.dropWhile isNameCharacter)
        have after := List.takeWhile_append_dropWhile (p := Text.isBlank) (l := rest)
        have value := List.takeWhile_append_dropWhile (p := isValueCharacter)
          (l := rest.dropWhile Text.isBlank)
        rw [separated] at blanks
        simp only [partsText_cons, partsText_nil, List.append_nil, List.append_assoc]
        rw [value, List.singleton_append, after, blanks, name]
      · simp
    · simp at finds
  · simp at finds

/-- The rules for attributes cover what they find, and the last of them finds any character. -/
theorem isComplete_attributeRules : IsComplete fun _ => attributeRules where
  covers := by
    intro state rule member
    simp only [attributeRules, List.mem_cons, List.not_mem_nil, or_false] at member
    rcases member with rfl | rfl | rfl | rfl | rfl
    · exact covers_single _ _ _ (by decide)
    · exact covers_assignment
    · exact covers_single _ _ _ (by decide)
    · exact covers_run _ _ _ (by decide)
    · exact covers_run _ _ _ (by decide)
  finds := by
    intro state lineStart c rest
    -- a character of no value is a brace or a separator
    by_cases value : isValueCharacter c = true
    · exact ⟨run isValueCharacter .text .attributes, by simp [attributeRules], by simp [run, value]⟩
    · by_cases brace : c = '{' ∨ c = '}'
      · refine ⟨single (fun c => c == '{' || c == '}') .punctuation .attributes,
          by simp [attributeRules], by simp [single, brace]⟩
      · refine ⟨single (fun c => c == ';' || c == ',') .punctuation .attributes,
          by simp [attributeRules], ?_⟩
        simp only [isValueCharacter, List.contains_cons, List.contains_nil, Bool.or_false,
          Bool.not_eq_true', Bool.not_eq_false, Bool.or_eq_true, beq_iff_eq] at value
        rcases value with semicolon | comma | opening | closing
        · simp [single, semicolon]
        · simp [single, comma]
        · exact absurd (Or.inl opening) brace
        · exact absurd (Or.inr closing) brace

/-- The parts of attributes are the attributes, and none is an error. -/
theorem partsText_attributeParts (blob : Text) :
    partsText (attributeParts blob) = blob ∧ ∀ part ∈ attributeParts blob, part.1 ≠ .error := by
  have lexed : Lexed (fun _ => attributeRules) .attributes [] blob (ofAttributes blob) :=
    isComplete_attributeRules.lexed_cutBy .attributes [] blob
  obtain ⟨whole, _, proper⟩ := lexed.lossless isComplete_attributeRules
  constructor
  · rw [attributeParts, partsText, List.flatMap_map]
    exact whole
  · intro part member
    obtain ⟨lexeme, present, rfl⟩ := List.mem_map.mp member
    exact (proper lexeme present).2

/-- Parts around a blob are no errors when none of the three is. -/
theorem styled_around (first blob last : List (Style × Text))
    (before : ∀ part ∈ first, part.1 ≠ .error) (inside : ∀ part ∈ blob, part.1 ≠ .error)
    (after : ∀ part ∈ last, part.1 ≠ .error) :
    ∀ part ∈ first ++ blob ++ last, part.1 ≠ .error :=
  List.forall_mem_append.mpr ⟨List.forall_mem_append.mpr ⟨before, inside⟩, after⟩

/-- The text in braces and what follows it are the whole text. -/
theorem braces_append (holds : Char → Bool) (text : Text) :
    (braces holds text).1 ++ (braces holds text).2 = text := by
  unfold braces
  split
  · rename_i inside
    split
    · rename_i rest closed
      have parts := List.takeWhile_append_dropWhile (p := holds) (l := inside)
      rw [closed] at parts
      simpa using parts
    · rfl
  · rfl

/-- The rule for opener lines covers what it finds, with the spacing around the opener. -/
theorem covers_openerLine : Rule.Covers openerLine := by
  intro lineStart text found finds
  simp only [openerLine] at finds
  split at finds
  · obtain ⟨⟨word, afterWord⟩, head, tail⟩ := Option.bind_eq_some_iff.mp finds
    simp only at tail
    split at tail
    · rw [Option.some.injEq] at tail
      subst tail
      obtain ⟨begins, _, _⟩ := (Span.inlineHead?_eq_some_iff _ word afterWord).mp head
      obtain ⟨blob, proper⟩ := partsText_attributeParts (braces isInsideLine afterWord).1
      refine ⟨?_, by simp [Span.marker], ?_⟩
      · have indent := List.takeWhile_append_dropWhile (p := Text.isSpacing) (l := text)
        have trail := List.takeWhile_append_dropWhile (p := Text.isSpacing)
          (l := (braces isInsideLine afterWord).2)
        simp only [partsText_append, partsText_cons, partsText_nil, List.append_nil,
          List.append_assoc, blob]
        rw [trail, braces_append, ← begins, indent]
      · exact styled_around _ _ _ (by simp) proper (by simp)
    · simp at tail
  · simp at finds

/-- The rule for closer lines covers what it finds, with the spacing around the marker. -/
theorem covers_closerLine : Rule.Covers closerLine := by
  intro lineStart text found finds
  simp only [closerLine] at finds
  split at finds
  · obtain ⟨afterMarker, head, tail⟩ := Option.bind_eq_some_iff.mp finds
    split at tail
    · rw [Option.some.injEq] at tail
      subst tail
      have begins := (Text.after?_eq_some_iff _ _ _).mp head
      refine ⟨?_, by simp [Span.marker], by simp⟩
      have indent := List.takeWhile_append_dropWhile (p := Text.isSpacing) (l := text)
      have trail := List.takeWhile_append_dropWhile (p := Text.isSpacing) (l := afterMarker)
      simp only [partsText_cons, partsText_nil, List.append_nil, List.append_assoc]
      rw [trail, ← begins, indent]
    · simp at tail
  · simp at finds

/-- The rule for the head of a directive covers what it finds. -/
theorem covers_inlineHead : Rule.Covers inlineHead := by
  intro lineStart text found finds
  rw [inlineHead] at finds
  obtain ⟨⟨word, afterWord⟩, head, tail⟩ := Option.bind_eq_some_iff.mp finds
  simp only at tail
  split at tail
  · simp at tail
  · rw [Option.some.injEq] at tail
    subst tail
    obtain ⟨begins, _, _⟩ := (Span.inlineHead?_eq_some_iff text word afterWord).mp head
    obtain ⟨blob, proper⟩ := partsText_attributeParts (braces isInsideLine afterWord).1
    refine ⟨?_, by simp [Span.marker], ?_⟩
    · have spacing := List.takeWhile_append_dropWhile (p := Text.isSpacing)
        (l := (braces isInsideLine afterWord).2)
      simp only [partsText_append, partsText_cons, partsText_nil, List.append_nil,
        List.append_assoc, blob]
      rw [spacing, braces_append, begins]
    · exact styled_around _ _ _ (by simp) proper (by simp)

/-- A mode word that is read stands in front of the text. -/
theorem exists_of_modeWord {text word rest : Text} (read : modeWord? text = some (word, rest)) :
    ∃ mode : Mode, word = mode.word ∧ text = mode.word ++ rest := by
  rw [modeWord?] at read
  split at read
  · rename_i later inlineMode
    simp only [Option.some.injEq, Prod.mk.injEq] at read
    exact ⟨.inline, read.1.symm, read.2 ▸ (Text.after?_eq_some_iff _ _ _).mp inlineMode⟩
  · rename_i later _ blockMode
    simp only [Option.some.injEq, Prod.mk.injEq] at read
    exact ⟨.block, read.1.symm, read.2 ▸ (Text.after?_eq_some_iff _ _ _).mp blockMode⟩
  · simp at read

/-- Whatever braces are found are a blob. -/
theorem isBlob_braces (text : Text) : Span.IsBlob true (braces isInside text).1 := by
  unfold braces
  split
  · rename_i inside
    split
    · refine Or.inr ⟨inside.takeWhile isInside, rfl, ?_, by simp⟩
      intro present
      have holds := List.mem_takeWhile_imp present
      exact absurd holds (by decide)
    · exact Or.inl rfl
  · exact Or.inl rfl

/-- The parts of a written token. -/
def tokenParts (placeholder : Placeholder) : List (Style × Text) :=
  [(.punctuation, ['[']), (.keyword, placeholder.action), (.punctuation, ['-'])] ++
    [(.decorator, placeholder.mode.word)] ++
      (attributeParts placeholder.blob ++ [(.punctuation, [']'])])

/-- The parts of a token hold the characters of the token. -/
theorem partsText_tokenParts (placeholder : Placeholder) :
    partsText (tokenParts placeholder) = placeholder.written := by
  have blob := (partsText_attributeParts placeholder.blob).1
  simpa [tokenParts, blob] using (placeholder.written_append []).symm

/-- Where the rule for tokens finds something, a written token stands. -/
theorem exists_of_token {lineStart : Bool} {text : Text} {found : Found}
    (finds : token lineStart text = some found) :
    ∃ placeholder : Placeholder, ∃ rest, text = placeholder.written ++ rest ∧
      found = { parts := tokenParts placeholder, rest, state := .root } := by
  rw [token] at finds
  obtain ⟨⟨word, afterWord⟩, head, finds⟩ := Option.bind_eq_some_iff.mp finds
  obtain ⟨⟨modeText, afterMode⟩, hyphen, finds⟩ := Option.bind_eq_some_iff.mp finds
  simp only at finds
  obtain ⟨rest, closed, finds⟩ := Option.map_eq_some_iff.mp finds
  subst finds
  obtain ⟨afterBracket, opened, named⟩ := Option.bind_eq_some_iff.mp head
  obtain ⟨afterHyphen, hyphened, moded⟩ := Option.bind_eq_some_iff.mp hyphen
  obtain ⟨mode, rfl, modePart⟩ := exists_of_modeWord moded
  obtain ⟨wordPart, run, _⟩ := (Span.word?_eq_some_iff _ word afterWord).mp named
  have bracket := (Text.after?_eq_some_iff _ _ _).mp opened
  have hyphenPart := (Text.after?_eq_some_iff _ _ _).mp hyphened
  have bracketPart := (Text.after?_eq_some_iff _ _ _).mp closed
  have blobPart : (braces isInside afterMode).1 ++ ']' :: rest = afterMode := by
    rw [← List.singleton_append, ← bracketPart, braces_append]
  refine ⟨⟨word, mode, (braces isInside afterMode).1, run, isBlob_braces afterMode⟩, rest, ?_, rfl⟩
  rw [Placeholder.written_append, blobPart, bracket, wordPart, hyphenPart, modePart]
  simp

/-- The rule for tokens covers what it finds. -/
theorem covers_token : Rule.Covers token := by
  intro lineStart text found finds
  obtain ⟨placeholder, rest, rfl, rfl⟩ := exists_of_token finds
  have proper := (partsText_attributeParts placeholder.blob).2
  refine ⟨by rw [partsText_tokenParts], ?_, ?_⟩
  · simp [partsText_tokenParts, Placeholder.written, Span.placeholderOpening]
  · rw [tokenParts, ← List.append_assoc]
    exact styled_around _ _ _ (by simp) proper (by simp)

/-- The rule for a closing marker covers what it finds. -/
theorem covers_closer : Rule.Covers closer := by
  intro lineStart text found finds
  simp only [closer] at finds
  split at finds
  · rename_i rest ends
    rw [Option.some.injEq] at finds
    subst finds
    exact ⟨by simpa using (Text.after?_eq_some_iff _ _ _).mp ends, by simp [Span.marker], by simp⟩
  · split at finds
    · split at finds
      · obtain ⟨rest, ends, same⟩ := Option.map_eq_some_iff.mp finds
        subst same
        exact ⟨by simpa using (Text.after?_eq_some_iff _ _ _).mp ends, by simp, by simp⟩
      · simp at finds
    · simp at finds

/-- Outside a payload, inside one and in braces, the rules leave no character without a lexeme. -/
theorem isComplete_rules : IsComplete State.rules where
  covers := by
    intro state rule member
    cases state with
    | root =>
      simp only [State.rules, rootRules, List.mem_cons, List.not_mem_nil, or_false] at member
      rcases member with rfl | rfl | rfl | rfl | rfl | rfl | rfl
      · exact covers_openerLine
      · exact covers_closerLine
      · exact covers_inlineHead
      · exact covers_token
      · exact covers_run _ _ _ (by decide)
      · exact covers_single _ _ _ (by decide)
      · exact covers_single _ _ _ (by decide)
    | payload =>
      simp only [State.rules, payloadRules, List.mem_cons, List.not_mem_nil, or_false] at member
      rcases member with rfl | rfl | rfl
      · exact covers_closer
      · exact covers_run _ _ _ (by decide)
      · exact covers_single _ _ _ (by decide)
    | attributes => exact isComplete_attributeRules.covers .attributes rule member
  finds := by
    intro state lineStart c rest
    cases state with
    | root =>
      by_cases feed : c = '\n'
      · exact ⟨single (· == '\n') .text .root, by simp [State.rules, rootRules],
          by simp [single, feed]⟩
      · exact ⟨single (· != '\n') .text .root, by simp [State.rules, rootRules],
          by simp [single, feed]⟩
    | payload =>
      by_cases colon : c = ':'
      · exact ⟨single (· == ':') .emphasis .payload, by simp [State.rules, payloadRules],
          by simp [single, colon]⟩
      · exact ⟨run (· != ':') .emphasis .payload, by simp [State.rules, payloadRules],
          by simp [run, colon]⟩
    | attributes => exact isComplete_attributeRules.finds .attributes lineStart c rest

/-- A source is cut by its rules in finitely many steps and in one way. Its lexemes together are
    the source, each starts behind the characters of those before it, none is empty, and none is an
    error.

    Proof: some rule finds something in front of every character, and what it finds is covered by
    its parts. So there is one cut, and an induction on it accounts for the lexemes. -/
theorem ofSource_lossless (source : Text) :
    (∀ result, Lexed State.rules .root [] source result ↔ result = ofSource source) ∧
      (ofSource source).flatMap Lexeme.value = source ∧
      (∀ before lexeme after, ofSource source = before ++ lexeme :: after →
        lexeme.start = (before.flatMap Lexeme.value).length) ∧
      ∀ lexeme ∈ ofSource source, lexeme.value ≠ [] ∧ lexeme.style ≠ .error := by
  have lexed : Lexed State.rules .root [] source (ofSource source) :=
    isComplete_rules.lexed_cutBy .root [] source
  obtain ⟨whole, placed, proper⟩ := lexed.lossless isComplete_rules
  refine ⟨?_, whole, ?_, proper⟩
  · intro result
    constructor
    · intro other
      exact other.unique lexed
    · rintro rfl
      exact lexed
  · intro before lexeme after same
    rw [same] at placed
    exact placed.start_eq.trans (Nat.zero_add _)

end Highlight

end HiddenContent
