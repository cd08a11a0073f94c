import HiddenContent.Proofs.CalmText

/-!
# The tokens that a search reads

Encoding writes a token for each hidden directive, and a search takes the tokens out again. What is
left is the text without its spans, when the search reads exactly the tokens that stand for them.
But a token brings a brace and a bracket along, and these can complete an opening such as
`[hide-inline{` that was unfinished in the text. The search then reads one token from there on. It
takes the token out, with what the author left visible in it, when the opening has the configured
action. An opening of another action stays in the text, with the tokens that it swallows. In a calm
text no opening is completed.

All forms of the stored text are tokens here. A token that begins between them ends where a piece
ends, because its first closing brace is a plain character or the last but one of a form. So a
search can be accounted for place by place: `IsAccount` says what stands at each place, and what
is read there.
-/

namespace HiddenContent

/-- Where one image of each item is no longer than another, and shorter for a chosen item, the
    images of all items are shorter by at least the number of chosen ones. -/
theorem length_flatMap_add_countP_le {α β : Type} (items : List α) (image other : α → List β)
    (chosen : α → Bool)
    (each : ∀ item ∈ items,
      (image item).length + (if chosen item then 1 else 0) ≤ (other item).length) :
    (items.flatMap image).length + items.countP chosen ≤ (items.flatMap other).length := by
  induction items with
  | nil => exact Nat.le_refl _
  | cons item rest inductionHypothesis =>
    obtain ⟨first, others⟩ := List.forall_mem_cons.mp each
    have later := inductionHypothesis others
    rw [List.flatMap_cons, List.flatMap_cons, List.countP_cons, List.length_append,
      List.length_append]
    omega

namespace Settings

/-- True when no token begins, once pieces are stored, at a character that is kept. -/
def completesNoToken (settings : Settings) : List Piece → Bool
  | [] => true
  | .plain c :: rest =>
    (Reader.tokens (c :: settings.storedOf rest)).isNone && settings.completesNoToken rest
  | .form _ _ :: rest => settings.completesNoToken rest

/-- True when every opening that is unfinished in a text stays so in the stored text. -/
def leavesUnfinished (settings : Settings) (text : Text) : Bool :=
  settings.completesNoToken (Piece.cut (Reader.all true) text)

/-- Plain characters and tokens of the configured action. -/
inductive Tokenized (settings : Settings) : List Piece → Prop where
  | done : Tokenized settings []
  | keep (c : Char) {rest : List Piece} (later : Tokenized settings rest) :
      Tokenized settings (.plain c :: rest)
  | token (placeholder : Placeholder) {rest : List Piece}
      (acts : settings.acts placeholder.action = true) (later : Tokenized settings rest) :
      Tokenized settings (.form placeholder.written (placeholder.span 0) :: rest)

/-- Where all spans of a text have the configured action, its pieces are stored as plain characters
    and tokens. -/
theorem tokenized_storedAs (settings : Settings) (sealing : '}' ∈ settings.forbiddenCharacters)
    {pieces : List Piece} (scan : Piece.Scan (Reader.all true) pieces) (pos : Nat)
    (acting : ∀ span ∈ Piece.placed pos pieces, settings.acts span.action = true) :
    settings.Tokenized (pieces.map settings.storedAs) := by
  induction scan generalizing pos with
  | done => exact .done
  | pass refused later inductionHypothesis => exact .keep _ (inductionHypothesis (pos + 1) acting)
  | @take written reading rest reads later inductionHypothesis =>
    obtain ⟨acts, others⟩ := List.forall_mem_cons.mp acting
    have onward := inductionHypothesis _ others
    rw [List.map_cons]
    cases hides : settings.hides reading with
    | true =>
      obtain ⟨word, _⟩ := settings.directive_of_hides reads hides
      have token := Tokenized.token (settings.tokenForm sealing word reading.mode
        (settings.canonicalize reading.blob)) (by simp [Settings.acts, tokenForm]) onward
      rw [written_tokenForm, span_tokenForm] at token
      rwa [storedAs_of_hides settings _ _ hides]
    | false =>
      rw [storedAs_of_keeps settings _ _ hides]
      rcases reads.directive_or_token with ⟨directive, rfl, rfl⟩ | ⟨placeholder, rfl, rfl⟩
      · have hidden : settings.hides (directive.span 0) = true :=
          (settings.hides_iff _).mpr ⟨rfl, acts⟩
        exact absurd (hidden.symm.trans hides) (by simp)
      · exact .token placeholder acts onward

/-- Behind a plain character, what is stored are plain characters and tokens. -/
theorem Tokenized.of_plain {settings : Settings} {c : Char} {rest : List Piece}
    (tokenized : settings.Tokenized ((Piece.plain c :: rest).map settings.storedAs)) :
    settings.Tokenized (rest.map settings.storedAs) := by
  rw [List.map_cons] at tokenized
  cases tokenized with
  | keep _ later => exact later

/-- A form is stored as a token, and behind it are plain characters and tokens. -/
theorem Tokenized.of_form {settings : Settings} {written : Text} {reading : Span}
    {rest : List Piece}
    (tokenized : settings.Tokenized ((Piece.form written reading :: rest).map settings.storedAs)) :
    ∃ token : Placeholder, settings.acts token.action = true ∧
      settings.storedAs (.form written reading) = .form token.written (token.span 0) ∧
      settings.Tokenized (rest.map settings.storedAs) := by
  obtain ⟨other, found, stored⟩ : ∃ other found,
      settings.storedAs (.form written reading) = .form other found := by
    rw [storedAs]
    split
    · exact ⟨_, _, rfl⟩
    · exact ⟨_, _, rfl⟩
  rw [List.map_cons, stored] at tokenized
  cases tokenized with
  | token token acts later => exact ⟨token, acts, stored, later⟩

/-- The search reads the stored pieces as they are exactly when no token is completed. -/
theorem scan_tokens_iff (settings : Settings) (pieces : List Piece)
    (tokenized : settings.Tokenized (pieces.map settings.storedAs)) :
    Piece.Scan Reader.tokens (pieces.map settings.storedAs) ↔
      settings.completesNoToken pieces = true := by
  induction pieces with
  | nil => exact ⟨fun _ => rfl, fun _ => .done⟩
  | cons piece rest inductionHypothesis =>
    cases piece with
    | plain c =>
      rw [List.map_cons, completesNoToken, Bool.and_eq_true, Option.isNone_iff_eq_none,
        ← textOf_storedAs, ← inductionHypothesis tokenized.of_plain]
      constructor
      · intro scan
        cases scan with
        | pass refused onward => exact ⟨refused, onward⟩
      · rintro ⟨refused, onward⟩
        exact .pass refused onward
    | form written reading =>
      obtain ⟨token, _, stored, later⟩ := tokenized.of_form
      rw [List.map_cons, stored, completesNoToken, ← inductionHypothesis later]
      constructor
      · intro scan
        cases scan with
        | take _ onward => exact onward
      · exact .take (Reader.tokens_reads token)

namespace Tokenized

variable {settings : Settings} {pieces : List Piece}

/-- The last pieces of stored pieces are plain characters and tokens too. -/
theorem suffix (tokenized : settings.Tokenized pieces) {last : List Piece}
    (ends : last <:+ pieces) : settings.Tokenized last := by
  induction tokenized with
  | done => exact List.suffix_nil.mp ends ▸ .done
  | keep c later inductionHypothesis =>
    rcases List.suffix_cons_iff.mp ends with rfl | inside
    · exact .keep c later
    · exact inductionHypothesis inside
  | token placeholder acts later inductionHypothesis =>
    rcases List.suffix_cons_iff.mp ends with rfl | inside
    · exact .token placeholder acts later
    · exact inductionHypothesis inside

/-- A part without an opening bracket ends where a piece ends. -/
theorem suffix_of_part (tokenized : settings.Tokenized pieces) (part more : Text)
    (unopened : '[' ∉ part) (same : part ++ more = Piece.textOf pieces) :
    ∃ last, last <:+ pieces ∧ Piece.textOf last = more := by
  induction tokenized generalizing part with
  | done =>
    obtain ⟨_, rfl⟩ := List.append_eq_nil_iff.mp same
    exact ⟨[], List.suffix_rfl, rfl⟩
  | @keep c rest later inductionHypothesis =>
    cases part with
    | nil => exact ⟨_, List.suffix_rfl, same.symm⟩
    | cons d others =>
      rw [Piece.textOf_plain, List.cons_append, List.cons.injEq] at same
      obtain ⟨last, ends, text⟩ :=
        inductionHypothesis others (List.not_mem_of_not_mem_cons unopened) same.2
      exact ⟨last, ends.trans (List.suffix_cons _ _), text⟩
  | @token placeholder rest acts later inductionHypothesis =>
    cases part with
    | nil => exact ⟨_, List.suffix_rfl, same.symm⟩
    | cons d others =>
      obtain ⟨tail, begins⟩ := placeholder.written_eq_cons
      rw [Piece.textOf_form, begins, List.cons_append, List.cons_append, List.cons.injEq] at same
      exact absurd (by simp [same.1]) unopened

/-- The first closing brace is a plain character, or the last but one of a token, so that a bracket
    that follows it ends a piece. -/
theorem suffix_of_brace (tokenized : settings.Tokenized pieces) (inside more : Text)
    (unclosed : '}' ∉ inside) (same : inside ++ '}' :: ']' :: more = Piece.textOf pieces) :
    ∃ last, last <:+ pieces ∧ Piece.textOf last = more := by
  induction tokenized generalizing inside with
  | done => simp at same
  | @keep c rest later inductionHypothesis =>
    cases inside with
    | nil =>
      rw [Piece.textOf_plain, List.nil_append, List.cons.injEq] at same
      obtain ⟨last, ends, text⟩ := later.suffix_of_part [']'] more (by decide) same.2
      exact ⟨last, ends.trans (List.suffix_cons _ _), text⟩
    | cons d others =>
      rw [Piece.textOf_plain, List.cons_append, List.cons.injEq] at same
      obtain ⟨last, ends, text⟩ :=
        inductionHypothesis others (List.not_mem_of_not_mem_cons unclosed) same.2
      exact ⟨last, ends.trans (List.suffix_cons _ _), text⟩
  | @token placeholder rest acts later inductionHypothesis =>
    have opening : '}' ∉ Span.placeholderOpening placeholder.action placeholder.mode :=
      List.not_mem_cons_of_ne_of_not_mem (by decide) placeholder.not_mem_head.2
    rw [Piece.textOf_form] at same
    rcases placeholder.blob_closed with blank | ⟨body, braces, closed, _⟩
    · -- a token without a blob is a part of what is inside
      have brace : '}' ∉ placeholder.written := by
        simp [Placeholder.written, blank, opening]
      rcases List.append_eq_append_iff.mp same with ⟨left, split, rest⟩ | ⟨left, split, rest⟩
      · cases left with
        | nil =>
          rw [List.append_nil] at split
          obtain ⟨last, ends, text⟩ := inductionHypothesis [] (by simp) (by simpa using rest)
          exact ⟨last, ends.trans (List.suffix_cons _ _), text⟩
        | cons d others =>
          rw [List.cons_append, List.cons.injEq] at rest
          exact absurd (by simp [split, ← rest.1]) brace
      · subst split
        obtain ⟨last, ends, text⟩ :=
          inductionHypothesis left (fun present => unclosed (by simp [present])) rest.symm
        exact ⟨last, ends.trans (List.suffix_cons _ _), text⟩
    · have whole : placeholder.written ++ Piece.textOf rest =
          (Span.placeholderOpening placeholder.action placeholder.mode ++ '{' :: body) ++
            '}' :: ']' :: Piece.textOf rest := by
        simp [Placeholder.written, braces]
      rw [whole] at same
      obtain ⟨_, ending⟩ := Span.inside_unique _ _ _ _ unclosed (by simp [opening, closed]) same
      rw [List.cons.injEq] at ending
      exact ⟨rest, List.suffix_cons _ _, ending.2.symm⟩

/-- A token that begins at a plain character ends where a piece ends. -/
theorem suffix_of_token (tokenized : settings.Tokenized pieces) (c : Char)
    (placeholder : Placeholder) (more : Text)
    (same : c :: Piece.textOf pieces = placeholder.written ++ more) :
    ∃ last, last <:+ pieces ∧ Piece.textOf last = more := by
  rw [placeholder.written_append, List.cons.injEq] at same
  obtain ⟨tail, ends, text⟩ :=
    tokenized.suffix_of_part _ _ placeholder.not_mem_head.1 same.2.symm
  have later := tokenized.suffix ends
  rcases placeholder.blob_closed with blank | ⟨body, braces, closed, _⟩
  · obtain ⟨last, further, rest⟩ :=
      later.suffix_of_part [']'] more (by decide) (by simp [text, blank])
    exact ⟨last, further.trans ends, rest⟩
  · obtain ⟨inner, opened, blob⟩ :=
      later.suffix_of_part ['{'] (body ++ '}' :: ']' :: more) (by decide) (by simp [text, braces])
    obtain ⟨last, further, rest⟩ :=
      (later.suffix opened).suffix_of_brace body more closed blob.symm
    exact ⟨last, further.trans (opened.trans ends), rest⟩

/-- Where every form is a token, what both readers refuse is what the search refuses. -/
theorem scan_tokens (tokenized : settings.Tokenized pieces)
    (scan : Piece.Scan (Reader.all true) pieces) : Piece.Scan Reader.tokens pieces := by
  induction tokenized with
  | done => exact .done
  | keep c later inductionHypothesis =>
    cases scan with
    | pass refused onward =>
      exact .pass ((Reader.all_eq_none_iff _).mp refused).2 (inductionHypothesis onward)
  | token placeholder acts later inductionHypothesis =>
    cases scan with
    | take _ onward => exact .take (Reader.tokens_reads placeholder) (inductionHypothesis onward)

end Tokenized

/-! ## What the search finds -/

/-- Of pieces no more is shown than is written. -/
theorem length_shownOf_le (settings : Settings) (pieces : List Piece) :
    (settings.shownOf pieces).length ≤ (Piece.textOf pieces).length := by
  induction pieces with
  | nil => exact Nat.le_refl _
  | cons piece rest inductionHypothesis =>
    cases piece with
    | plain c => simpa [shownPiece, Piece.rewritten] using inductionHypothesis
    | form written reading =>
      rw [shownOf_cons, Piece.textOf_form, List.length_append, List.length_append]
      cases acts : settings.acts reading.action with
      | true =>
        rw [settings.shownPiece_of_acts _ _ acts]
        exact Nat.add_le_add (Nat.zero_le _) inductionHypothesis
      | false =>
        have same : settings.shownPiece (.form written reading) = written := by
          simp [shownPiece, Piece.rewritten, acts]
        rw [same]
        exact Nat.add_le_add_left inductionHypothesis _

/-- Of pieces with the token of a hidden directive less is shown than is written. -/
theorem length_shownOf_lt (settings : Settings) {written : Text} {reading : Span}
    (hides : settings.hides reading = true) {pieces : List Piece}
    (present : settings.storedAs (.form written reading) ∈ pieces) :
    (settings.shownOf pieces).length < (Piece.textOf pieces).length := by
  obtain ⟨before, after, rfl⟩ := List.append_of_mem present
  have first := settings.length_shownOf_le before
  have last := settings.length_shownOf_le after
  have silent : settings.shownPiece (settings.storedAs (.form written reading)) = [] := by
    rw [settings.shownPiece_storedAs]
    exact settings.shownPiece_of_acts _ _ ((settings.hides_iff reading).mp hides).2
  rw [shownOf_append, shownOf_cons, silent, Piece.textOf_append,
    settings.storedAs_of_hides _ _ hides, Piece.textOf_form, settings.token_eq]
  simp [Span.placeholderOpening]
  omega

/-- A token that an opening of a text is completed to. It takes a kept character with the pieces
    behind it, and one of these stands for a hidden directive. -/
structure Completion (settings : Settings) where
  token : Placeholder
  first : Char
  more : List Piece
  written : token.written = first :: Piece.textOf more
  directive : Directive
  hides : settings.hides (directive.span 0) = true
  takes : settings.storedAs (.form directive.written (directive.span 0)) ∈ more

/-- What the search finds at one place of a stored text: a character, a token that stands there, or
    a token that an opening is completed to. -/
inductive Finding (settings : Settings) where
  | kept (c : Char)
  | written (token : Placeholder) (acts : settings.acts token.action = true)
  | completed (completion : Completion settings)

namespace Finding

variable {settings : Settings}

/-- The stored pieces at the place. -/
def pieces : Finding settings → List Piece
  | kept c => [.plain c]
  | written token _ => [.form token.written (token.span 0)]
  | completed completion => .plain completion.first :: completion.more

/-- The one piece that the search reads there. -/
def read : Finding settings → Piece
  | kept c => .plain c
  | written token _ => .form token.written (token.span 0)
  | completed completion => .form completion.token.written (completion.token.span 0)

/-- What the author left visible there. -/
def visible (finding : Finding settings) : Text := settings.shownOf finding.pieces

/-- What the search leaves there. -/
def stripped (finding : Finding settings) : Text := settings.shownPiece finding.read

/-- True when visible characters go with a completed token of the configured action. -/
def loses : Finding settings → Bool
  | completed completion => settings.acts completion.token.action
  | _ => false

/-- True when a completed token of another action stays, with the tokens that it swallows. -/
def reveals : Finding settings → Bool
  | completed completion => !settings.acts completion.token.action
  | _ => false

/-- A completed token is taken out whole, or stays whole. -/
theorem stripped_completed (completion : settings.Completion) :
    (completed completion).stripped =
      if settings.acts completion.token.action then [] else completion.token.written := by
  simp [stripped, read, shownPiece, Piece.rewritten, Placeholder.span]

/-- At a completed token, its first character is visible. -/
theorem visible_completed (completion : settings.Completion) :
    (completed completion).visible =
      completion.first :: settings.shownOf completion.more := rfl

/-- What the search leaves at a token of another action holds the token of a directive that was
    hidden. -/
theorem token_infix_stripped (finding : Finding settings) (reveals : finding.reveals = true) :
    ∃ directive : Directive, settings.hides (directive.span 0) = true ∧
      settings.token .inline (settings.canonicalize directive.blob) <:+: finding.stripped := by
  cases finding with
  | kept c => simp [Finding.reveals] at reveals
  | written token acts => simp [Finding.reveals] at reveals
  | completed completion =>
    have other : settings.acts completion.token.action = false := by
      simpa [Finding.reveals] using reveals
    obtain ⟨before, after, parts⟩ := List.append_of_mem completion.takes
    refine ⟨completion.directive, completion.hides,
      completion.first :: Piece.textOf before, Piece.textOf after, ?_⟩
    rw [stripped_completed, other, if_neg Bool.false_ne_true, completion.written, parts,
      settings.storedAs_of_hides _ _ completion.hides, Piece.textOf_append, Piece.textOf_form]
    simp [Directive.span]

/-- Where no token of another action is completed, the search leaves no more than what is visible,
    and less where one of the configured action is. -/
theorem length_stripped_le (finding : Finding settings) (concealed : finding.reveals = false) :
    finding.stripped.length + (if finding.loses then 1 else 0) ≤ finding.visible.length := by
  cases finding with
  | kept c => simp [stripped, visible, read, pieces, loses]
  | written token acts => simp [stripped, visible, read, pieces, loses]
  | completed completion =>
    have acts : settings.acts completion.token.action = true := by
      simpa [reveals] using concealed
    rw [stripped_completed, acts, if_pos rfl, visible_completed]
    simp [loses, acts]

/-- Where no token of the configured action is completed, the search leaves no less than what is
    visible, and more where one of another action is. -/
theorem length_visible_le (finding : Finding settings) (intact : finding.loses = false) :
    finding.visible.length + (if finding.reveals then 1 else 0) ≤ finding.stripped.length := by
  cases finding with
  | kept c => simp [stripped, visible, read, pieces, reveals]
  | written token acts => simp [stripped, visible, read, pieces, reveals]
  | completed completion =>
    have other : settings.acts completion.token.action = false := intact
    have fewer := settings.length_shownOf_lt completion.hides completion.takes
    rw [stripped_completed, other, if_neg Bool.false_ne_true, visible_completed,
      completion.written]
    simp [reveals, other]
    omega

/-- The search leaves what is visible where it completes no token. -/
theorem stripped_eq_visible (finding : Finding settings)
    (intact : finding.loses = false ∧ finding.reveals = false) :
    finding.stripped = finding.visible := by
  cases finding with
  | kept c => rfl
  | written token acts => simp [stripped, visible, read, pieces]
  | completed completion => simp [loses, reveals] at intact

/-- What is read is what stands there, place by place, exactly when no token is completed. -/
theorem map_read_eq_iff (findings : List settings.Finding) :
    findings.map read = findings.flatMap pieces ↔
      ∀ finding ∈ findings, finding.loses = false ∧ finding.reveals = false := by
  induction findings with
  | nil => simp
  | cons finding rest inductionHypothesis =>
    rw [List.forall_mem_cons, ← inductionHypothesis]
    cases finding with
    | kept c => simp [read, pieces, loses, reveals]
    | written token acts => simp [read, pieces, loses, reveals]
    | completed completion => simp [read, pieces, loses, reveals]

end Finding

/-- What a text shows without its spans. -/
theorem splice_eq_shownOf (settings : Settings) (text : Text)
    (acting : ∀ span ∈ Tokens.ofText text true, settings.acts span.action = true) :
    Span.splice text (fun _ => []) 0 (Tokens.ofText text true) =
      settings.shownOf (Piece.cut (Reader.all true) text) := by
  rw [← settings.splice_shown (Reader.isLocal_all true) text, ← Tokens.ofText_eq_placed,
    List.filter_eq_self.mpr acting]

/-- In a calm text no opening is completed. -/
theorem leavesUnfinished_of_calm (settings : Settings)
    (sealing : '}' ∈ settings.forbiddenCharacters) (text : Text)
    (acting : ∀ span ∈ Tokens.ofText text true, settings.acts span.action = true)
    (calm : settings.isCalm text = true) : settings.leavesUnfinished text = true := by
  obtain ⟨scan, _⟩ := Piece.scan_cut (Reader.isLocal_all true) text
  rw [Tokens.ofText_eq_placed] at acting
  have tokenized := settings.tokenized_storedAs sealing scan 0 acting
  exact (settings.scan_tokens_iff _ tokenized).mp
    (tokenized.scan_tokens (settings.scan_storedAs sealing scan calm))

/-- A completed token takes a directive that is hidden. Were all its pieces stored as they are
    written, the token would stand in the text, and its first character would not be plain. -/
theorem exists_hidden_of_completed (settings : Settings) {c : Char} {taken rest : List Piece}
    (scan : Piece.Scan (Reader.all true) (.plain c :: (taken ++ rest))) (token : Placeholder)
    (written : token.written = c :: settings.storedOf taken) :
    ∃ directive : Directive, settings.hides (directive.span 0) = true ∧
      .form directive.written (directive.span 0) ∈ taken := by
  cases scan with
  | pass refused later =>
    have within := later.left (Reader.isLocal_all true)
    by_cases shown : ∀ span ∈ Piece.placed 0 taken, settings.hides span = false
    · have same := (settings.storedOf_eq_textOf_iff within 0).mpr shown
      have unread := ((Reader.all_eq_none_iff _).mp refused).2
      rw [Piece.textOf_append, ← List.cons_append, ← same, ← written, token.read_written] at unread
      exact absurd unread (by simp)
    · push Not at shown
      obtain ⟨span, member, hides⟩ := shown
      obtain ⟨before, form, reading, after, rfl, rfl⟩ := Piece.exists_of_mem_placed member
      have reads : (Reader.all true).Reads form reading := by
        cases within.right with
        | take reads _ => exact reads
      have hidden : settings.hides reading = true := (Bool.not_eq_false _).mp hides
      obtain ⟨_, directive, rfl, rfl⟩ := settings.directive_of_hides reads hidden
      exact ⟨directive, hidden, by simp⟩

/-- An account of what the search finds in the stored form of a text, place by place. -/
structure IsAccount (settings : Settings) (text : Text) (findings : List settings.Finding) :
    Prop where
  pieces : findings.flatMap Finding.pieces =
    (Piece.cut (Reader.all true) text).map settings.storedAs
  read : findings.map Finding.read = Piece.cut Reader.tokens (settings.encodeInline text)

/-- A token that the search reads at a kept character is a completed one, and the pieces that it
    takes end where a piece ends. -/
theorem exists_completion (settings : Settings) {c : Char} {rest : List Piece} {reading : Span}
    (scan : Piece.Scan (Reader.all true) (.plain c :: rest))
    (tokenized : settings.Tokenized (rest.map settings.storedAs))
    (found : Reader.tokens (c :: settings.storedOf rest) = some reading) :
    ∃ (completion : settings.Completion) (taken left : List Piece), rest = taken ++ left ∧
      (Finding.completed completion).pieces = .plain c :: taken.map settings.storedAs ∧
      c :: settings.storedOf rest = completion.token.written ++ settings.storedOf left := by
  obtain ⟨token, more, whole, rfl⟩ := Placeholder.exists_of_read _ 0 reading found
  obtain ⟨last, ⟨first, parts⟩, text⟩ :=
    tokenized.suffix_of_token c token more (by rwa [textOf_storedAs])
  obtain ⟨taken, left, rfl, rfl, rfl⟩ := List.map_eq_append_iff.mp parts.symm
  rw [textOf_storedAs] at text
  rw [← text] at whole
  have written : token.written = c :: settings.storedOf taken := by
    rw [storedOf_append, ← List.cons_append] at whole
    exact (List.append_cancel_right whole).symm
  obtain ⟨directive, hides, takes⟩ := settings.exists_hidden_of_completed scan token written
  let completion : settings.Completion :=
    { token
      first := c
      more := taken.map settings.storedAs
      written := by rw [textOf_storedAs, written]
      directive
      hides
      takes := List.mem_map_of_mem takes }
  exact ⟨completion, taken, left, rfl, rfl, whole⟩

/-- Stored pieces fall into places where the search finds something, in order.

    Proof: the induction is on the number of pieces, because a completed token takes several at
    once. It ends where a piece ends, so the pieces behind it are accounted for as on their own. -/
theorem exists_findings (settings : Settings) {pieces : List Piece}
    (scan : Piece.Scan (Reader.all true) pieces)
    (tokenized : settings.Tokenized (pieces.map settings.storedAs)) :
    ∃ findings : List settings.Finding,
      findings.flatMap Finding.pieces = pieces.map settings.storedAs ∧
        findings.map Finding.read = Piece.cut Reader.tokens (settings.storedOf pieces) := by
  induction size : pieces.length using Nat.strong_induction_on generalizing pieces with
  | _ bound inductionHypothesis =>
    cases pieces with
    | nil => exact ⟨[], rfl, rfl⟩
    | cons piece rest =>
      have onward : Piece.Scan (Reader.all true) rest := by
        cases scan with
        | pass _ later => exact later
        | take _ later => exact later
      cases piece with
      | form written reading =>
        obtain ⟨token, acts, stored, later⟩ := tokenized.of_form
        obtain ⟨findings, pieces, read⟩ :=
          inductionHypothesis rest.length (by simp [← size]) onward later rfl
        refine ⟨.written token acts :: findings, ?_, ?_⟩
        · rw [List.flatMap_cons, pieces, List.map_cons, stored]
          rfl
        · rw [List.map_cons, read, ← textOf_storedAs, ← textOf_storedAs, List.map_cons, stored,
            Piece.textOf_form, Piece.cut_of_reads (Reader.tokens_reads token)]
          rfl
      | plain c =>
        have later := tokenized.of_plain
        rw [storedOf_plain]
        cases found : Reader.tokens (c :: settings.storedOf rest) with
        | none =>
          obtain ⟨findings, pieces, read⟩ :=
            inductionHypothesis rest.length (by simp [← size]) onward later rfl
          refine ⟨.kept c :: findings, ?_, ?_⟩
          · rw [List.flatMap_cons, pieces]
            rfl
          · rw [List.map_cons, read, Piece.cut_of_refused found]
            rfl
        | some reading =>
          obtain ⟨completion, taken, left, rfl, stands, whole⟩ :=
            settings.exists_completion scan later found
          have fewer : left.length < bound := by
            rw [← size, List.length_cons, List.length_append]
            omega
          have ends : left.map settings.storedAs <:+ (taken ++ left).map settings.storedAs := by
            rw [List.map_append]
            exact List.suffix_append _ _
          obtain ⟨findings, pieces, read⟩ :=
            inductionHypothesis left.length fewer onward.right (later.suffix ends) rfl
          refine ⟨.completed completion :: findings, ?_, ?_⟩
          · rw [List.flatMap_cons, pieces, stands, List.map_cons, List.map_append]
            rfl
          · rw [List.map_cons, read, whole,
              Piece.cut_of_reads (Reader.tokens_reads completion.token)]
            rfl

/-- Of every text whose spans all have the configured action there is an account. -/
theorem exists_account (settings : Settings) (sealing : '}' ∈ settings.forbiddenCharacters)
    (text : Text) (acting : ∀ span ∈ Tokens.ofText text true, settings.acts span.action = true) :
    ∃ findings, settings.IsAccount text findings := by
  obtain ⟨scan, _⟩ := Piece.scan_cut (Reader.isLocal_all true) text
  rw [Tokens.ofText_eq_placed] at acting
  obtain ⟨findings, pieces, read⟩ :=
    settings.exists_findings scan (settings.tokenized_storedAs sealing scan 0 acting)
  exact ⟨findings, pieces, by rw [read, encodeInline_eq_storedOf]⟩

namespace IsAccount

variable {settings : Settings} {text : Text} {findings : List settings.Finding}

/-- The text without its spans is what is visible at every place. -/
theorem splice_eq (account : settings.IsAccount text findings)
    (acting : ∀ span ∈ Tokens.ofText text true, settings.acts span.action = true) :
    Span.splice text (fun _ => []) 0 (Tokens.ofText text true) =
      findings.flatMap Finding.visible := by
  rw [settings.splice_eq_shownOf text acting, ← shownOf_storedAs, ← account.pieces, shownOf,
    List.flatMap_assoc]
  rfl

/-- What the search leaves of the stored text is what it leaves at every place. -/
theorem strip_eq (account : settings.IsAccount text findings) :
    Search.strip settings (settings.encodeInline text) = findings.flatMap Finding.stripped := by
  rw [Search.strip_eq, ← account.read, shownOf, List.flatMap_map]
  rfl

/-- An account has no completed token exactly when every unfinished opening stays unfinished. -/
theorem leavesUnfinished_iff (account : settings.IsAccount text findings)
    (tokenized : settings.Tokenized ((Piece.cut (Reader.all true) text).map settings.storedAs)) :
    settings.leavesUnfinished text = true ↔
      ∀ finding ∈ findings, finding.loses = false ∧ finding.reveals = false := by
  rw [leavesUnfinished, ← settings.scan_tokens_iff _ tokenized, ← Finding.map_read_eq_iff,
    account.pieces, account.read, encodeInline_eq_storedOf, ← textOf_storedAs]
  constructor
  · exact Piece.cut_textOf
  · intro same
    rw [← same]
    exact (Piece.scan_cut Reader.isLocal_tokens _).1

/-- Where all tokens of the stored text have the configured action, none of another one is
    completed. -/
theorem concealed (account : settings.IsAccount text findings)
    (own : ∀ token ∈ Tokens.placeholders (settings.encodeInline text),
      settings.acts token.action = true) : ∀ finding ∈ findings, finding.reveals = false := by
  intro finding member
  cases finding with
  | kept c => rfl
  | written token acts => rfl
  | completed completion =>
    have read := List.mem_map_of_mem (f := Finding.read) member
    rw [account.read] at read
    obtain ⟨before, after, parts⟩ := List.append_of_mem read
    rw [Tokens.placeholders_eq_placed, parts] at own
    have acts : settings.acts completion.token.action = true :=
      own _ (Piece.mem_placed before after _ _ 0)
    simp [Finding.reveals, acts]

/-- Where every unfinished opening stays unfinished, the search leaves the text without its
    spans. -/
theorem strip_eq_splice (account : settings.IsAccount text findings)
    (acting : ∀ span ∈ Tokens.ofText text true, settings.acts span.action = true)
    (intact : ∀ finding ∈ findings, finding.loses = false ∧ finding.reveals = false) :
    Search.strip settings (settings.encodeInline text) =
      Span.splice text (fun _ => []) 0 (Tokens.ofText text true) := by
  rw [account.strip_eq, account.splice_eq acting, List.flatMap_def, List.flatMap_def]
  exact congrArg List.flatten (List.map_congr_left fun finding member =>
    finding.stripped_eq_visible (intact finding member))

/-- Where an opening is completed, and none to a token of another action, the search leaves less
    than the text without its spans. -/
theorem length_strip_lt (account : settings.IsAccount text findings)
    (acting : ∀ span ∈ Tokens.ofText text true, settings.acts span.action = true)
    (completed : ¬∀ finding ∈ findings, finding.loses = false ∧ finding.reveals = false)
    (concealed : ∀ finding ∈ findings, finding.reveals = false) :
    (Search.strip settings (settings.encodeInline text)).length <
      (Span.splice text (fun _ => []) 0 (Tokens.ofText text true)).length := by
  have lost : 0 < findings.countP Finding.loses := by
    rw [Nat.pos_iff_ne_zero, ne_eq, List.countP_eq_zero]
    intro none
    exact completed fun finding member =>
      ⟨(Bool.not_eq_true _).mp (none finding member), concealed finding member⟩
  have counted := length_flatMap_add_countP_le findings Finding.stripped Finding.visible
    Finding.loses fun finding member => finding.length_stripped_le (concealed finding member)
  rw [account.strip_eq, account.splice_eq acting]
  omega

/-- Where an opening is completed, and none to a token of the configured action, the search leaves
    more than the text without its spans. -/
theorem length_splice_lt (account : settings.IsAccount text findings)
    (acting : ∀ span ∈ Tokens.ofText text true, settings.acts span.action = true)
    (completed : ¬∀ finding ∈ findings, finding.loses = false ∧ finding.reveals = false)
    (intact : ∀ finding ∈ findings, finding.loses = false) :
    (Span.splice text (fun _ => []) 0 (Tokens.ofText text true)).length <
      (Search.strip settings (settings.encodeInline text)).length := by
  have revealed : 0 < findings.countP Finding.reveals := by
    rw [Nat.pos_iff_ne_zero, ne_eq, List.countP_eq_zero]
    intro none
    exact completed fun finding member =>
      ⟨intact finding member, (Bool.not_eq_true _).mp (none finding member)⟩
  have counted := length_flatMap_add_countP_le findings Finding.visible Finding.stripped
    Finding.reveals fun finding member => finding.length_visible_le (intact finding member)
  rw [account.strip_eq, account.splice_eq acting]
  omega

end IsAccount

/-- What the search leaves of a stored text whose spans all have the configured action is the text
    without its spans, unless an opening is completed, and calm texts complete none. Where an
    opening is completed, the account of the search says at which places: a token of the configured
    action takes visible characters out with it, and a token of another action stays with the tokens
    that it swallows.

    Proof: the tokens that the search reads end where stored pieces end, so the stored text falls
    into places at which it keeps a character, finds a token that stands there, or completes one.
    The lengths are compared place by place. -/
theorem strip_encoded (text : Text)
    (acting : ∀ span ∈ Tokens.ofText text true, acts {} span.action = true) :
    (leavesUnfinished {} text = true →
        Search.strip {} (encodeInline {} text) =
          Span.splice text (fun _ => []) 0 (Tokens.ofText text true)) ∧
      (leavesUnfinished {} text = false →
        (∀ token ∈ Tokens.placeholders (encodeInline {} text), acts {} token.action = true) →
        (Search.strip {} (encodeInline {} text)).length <
          (Span.splice text (fun _ => []) 0 (Tokens.ofText text true)).length) ∧
      (isCalm {} text = true → leavesUnfinished {} text = true) ∧
      ∃ findings : List (Finding {}), IsAccount {} text findings ∧
        Span.splice text (fun _ => []) 0 (Tokens.ofText text true) =
          findings.flatMap Finding.visible ∧
        Search.strip {} (encodeInline {} text) = findings.flatMap Finding.stripped ∧
        (leavesUnfinished {} text = true ↔
          ∀ finding ∈ findings, finding.loses = false ∧ finding.reveals = false) ∧
        (∀ finding ∈ findings, finding.reveals = true →
          ∃ directive : Directive, hides {} (directive.span 0) = true ∧
            token {} .inline (canonicalize {} directive.blob) <:+: finding.stripped) ∧
        (leavesUnfinished {} text = false → (∀ finding ∈ findings, finding.loses = false) →
          (Span.splice text (fun _ => []) 0 (Tokens.ofText text true)).length <
            (Search.strip {} (encodeInline {} text)).length) := by
  have sealing : '}' ∈ forbiddenCharacters {} := by decide
  obtain ⟨scan, _⟩ := Piece.scan_cut (Reader.isLocal_all true) text
  have placed := acting
  rw [Tokens.ofText_eq_placed] at placed
  have tokenized := tokenized_storedAs {} sealing scan 0 placed
  obtain ⟨findings, account⟩ := exists_account {} sealing text acting
  have finished := account.leavesUnfinished_iff tokenized
  have completes (never : leavesUnfinished {} text = false) :
      ¬∀ finding ∈ findings, finding.loses = false ∧ finding.reveals = false := by
    rw [← finished, never]
    exact Bool.false_ne_true
  refine ⟨?_, ?_, leavesUnfinished_of_calm {} sealing text acting, findings, account,
    account.splice_eq acting, account.strip_eq, finished,
    fun finding _ => finding.token_infix_stripped, ?_⟩
  · intro unfinished
    exact account.strip_eq_splice acting (finished.mp unfinished)
  · intro never own
    exact account.length_strip_lt acting (completes never) (account.concealed own)
  · intro never intact
    exact account.length_splice_lt acting (completes never) intact

/-- An opening before a directive without attributes stays unfinished. -/
theorem strip_encoded_calm :
    Search.strip {} (encodeInline {} "[hide-inline\x7b :::hide x\n]:::\x7d y".toList) =
      Span.splice "[hide-inline\x7b :::hide x\n]:::\x7d y".toList (fun _ => []) 0
        (Tokens.ofText "[hide-inline\x7b :::hide x\n]:::\x7d y".toList true) :=
  (strip_encoded "[hide-inline\x7b :::hide x\n]:::\x7d y".toList (by
    rw [Tokens.ofText_eq_placed]
    decide)).1 (by decide)

/-- An opening of another action stays, with the token that completes it. -/
example :
    Search.strip {} (encodeInline {} "[note-inline\x7b :::hide\x7ba=1\x7d x:::".toList) =
      "[note-inline\x7b [hide-inline\x7ba:1\x7d]".toList := by
  rw [Search.strip_eq, encodeInline_eq]
  decide

/-- The token of this directive closes the opening before it, and the search takes the opening out
    with the token. -/
theorem strip_encoded_ne :
    (∀ span ∈ Tokens.ofText "[hide-inline\x7b :::hide\x7ba=1\x7d x:::".toList true,
        acts {} span.action = true) ∧
      Search.strip {} (encodeInline {} "[hide-inline\x7b :::hide\x7ba=1\x7d x:::".toList) ≠
        Span.splice "[hide-inline\x7b :::hide\x7ba=1\x7d x:::".toList (fun _ => []) 0
          (Tokens.ofText "[hide-inline\x7b :::hide\x7ba=1\x7d x:::".toList true) := by
  have acting : ∀ span ∈ Tokens.ofText "[hide-inline\x7b :::hide\x7ba=1\x7d x:::".toList true,
      acts {} span.action = true := by
    rw [Tokens.ofText_eq_placed]
    decide
  have encoded : encodeInline {} "[hide-inline\x7b :::hide\x7ba=1\x7d x:::".toList =
      "[hide-inline\x7b [hide-inline\x7ba:1\x7d]".toList := by
    rw [encodeInline_eq]
    decide
  refine ⟨acting, ?_⟩
  rw [splice_eq_shownOf {} _ acting, encoded, Search.strip_eq]
  decide

end Settings

end HiddenContent
