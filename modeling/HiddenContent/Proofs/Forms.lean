import HiddenContent.Span
import Mathlib.Data.List.TakeWhile

/-!
# Written forms

A directive and a token are each written as a sequence of parts. `Directive` and `Placeholder`
hold those parts together with what makes them readable: the action is a word, the blob closes,
the payload ends at its first marker. A reader accepts exactly the texts that begin with such a
written form, whatever follows it. Hence nothing after the end of a form changes how the form is
read, which is the fact that every statement about replaced content starts from.
-/

namespace HiddenContent

namespace Text

/-- Word characters, at least one. -/
def IsWordRun (text : Text) : Prop := text ≠ [] ∧ ∀ c ∈ text, isWord c = true

/-- A character of another class stands in no word. -/
theorem IsWordRun.not_mem {word : Text} (run : word.IsWordRun) (c : Char)
    (other : isWord c = false) : c ∉ word := by
  intro present
  rw [run.2 c present] at other
  exact absurd other (by simp)

/-- The text does not begin with a character of the class. -/
def StopsAt (belongs : Char → Bool) (text : Text) : Prop := ∀ c ∈ text.head?, belongs c = false

/-- Every run stops at the end of a text. -/
theorem stopsAt_nil (belongs : Char → Bool) : StopsAt belongs [] := by simp [StopsAt]

/-- A run stops at the first character that does not belong to it. -/
theorem stopsAt_cons (belongs : Char → Bool) (c : Char) (rest : Text) :
    StopsAt belongs (c :: rest) ↔ belongs c = false := by simp [StopsAt]

/-- A run ends where a text stops. -/
theorem takeWhile_run (belongs : Char → Bool) (run rest : Text)
    (inside : ∀ c ∈ run, belongs c = true) (stops : StopsAt belongs rest) :
    (run ++ rest).takeWhile belongs = run := by
  rw [List.takeWhile_append_of_pos inside]
  cases rest with
  | nil => simp
  | cons c more => simp [(stopsAt_cons belongs c more).mp stops]

/-- Behind a run that stops stands what follows it. -/
theorem dropWhile_run (belongs : Char → Bool) (run rest : Text)
    (inside : ∀ c ∈ run, belongs c = true) (stops : StopsAt belongs rest) :
    (run ++ rest).dropWhile belongs = rest := by
  rw [List.dropWhile_append_of_pos inside]
  cases rest with
  | nil => rfl
  | cons c more => simp [(stopsAt_cons belongs c more).mp stops]

/-- What is left after a run stops there. -/
theorem stopsAt_dropWhile (belongs : Char → Bool) (text : Text) :
    StopsAt belongs (text.dropWhile belongs) := by
  intro c present
  have refused := List.head?_dropWhile_not belongs text
  rw [Option.mem_def.mp present] at refused
  exact refused

/-- Only a beginning can be taken off. -/
theorem after?_eq_some_iff (beginning text rest : Text) :
    after? beginning text = some rest ↔ text = beginning ++ rest := by
  rw [after?]
  constructor
  · intro taken
    split at taken
    · rename_i starts
      obtain ⟨later, rfl⟩ := List.isPrefixOf_iff_prefix.mp starts
      rw [Option.some.injEq, List.drop_left] at taken
      rw [taken]
    · simp at taken
  · rintro rfl
    simp

/-- A cut puts the separator between its two parts. -/
theorem eq_of_cut (separator text before after : Text)
    (found : cut? separator text = some (before, after)) :
    text = before ++ separator ++ after := by
  induction text generalizing before after with
  | nil =>
    simp only [cut?] at found
    split at found
    · rename_i blank
      simp only [Option.some.injEq, Prod.mk.injEq] at found
      simp [← found.1, ← found.2, List.isEmpty_iff.mp blank]
    · simp at found
  | cons c rest inductionHypothesis =>
    simp only [cut?] at found
    split at found
    · rename_i starts
      obtain ⟨later, same⟩ := List.isPrefixOf_iff_prefix.mp starts
      simp only [Option.some.injEq, Prod.mk.injEq] at found
      simp [← found.1, ← found.2, ← same]
    · obtain ⟨⟨first, second⟩, inside, same⟩ := Option.map_eq_some_iff.mp found
      simp only [Prod.mk.injEq] at same
      obtain ⟨rfl, rfl⟩ := same
      have cut := inductionHypothesis first second inside
      simpa using congrArg (c :: ·) cut

/-- A separator that stands in a text is found. -/
theorem cut?_isSome_iff (separator text : Text) :
    (cut? separator text).isSome = true ↔ separator <:+: text := by
  induction text with
  | nil => simp [cut?, List.isEmpty_iff]
  | cons c rest inductionHypothesis =>
    simp only [cut?]
    split
    · rename_i starts
      simp [(List.isPrefixOf_iff_prefix.mp starts).isInfix]
    · rename_i missing
      rw [Option.isSome_map, inductionHypothesis, List.infix_cons_iff]
      have absent : ¬separator <+: c :: rest := by
        intro starts
        exact missing (List.isPrefixOf_iff_prefix.mpr starts)
      simp [absent]

/-- A character of a text stands in it for the last time. -/
theorem exists_last_of_mem {c : Char} {text : Text} (present : c ∈ text) :
    ∃ before after, text = before ++ c :: after ∧ c ∉ after := by
  obtain ⟨after, before, backwards, absent⟩ :=
    List.eq_append_cons_of_mem (List.mem_reverse.mpr present)
  refine ⟨before.reverse, after.reverse, ?_, by simpa using absent⟩
  simpa using congrArg List.reverse backwards

/-- Beginnings of a long enough text are those of the text with anything after it. -/
theorem prefix_append_iff (part text rest : Text) (short : part.length ≤ text.length) :
    part <+: text ++ rest ↔ part <+: text := by
  constructor
  · intro starts
    exact List.prefix_of_prefix_length_le starts (List.prefix_append text rest) short
  · intro starts
    exact starts.trans (List.prefix_append text rest)

/-- The first separator stays the first one whatever follows it. -/
theorem cut?_append (separator text before after : Text)
    (found : cut? separator text = some (before, after)) (inhabited : separator ≠ [])
    (rest : Text) : cut? separator (before ++ separator ++ rest) = some (before, rest) := by
  induction text generalizing before after with
  | nil => simp [cut?, inhabited] at found
  | cons c more inductionHypothesis =>
    simp only [cut?] at found
    split at found
    · simp only [Option.some.injEq, Prod.mk.injEq] at found
      obtain ⟨first, others, rfl⟩ := List.exists_cons_of_ne_nil inhabited
      simp [← found.1, cut?]
    · rename_i missing
      obtain ⟨⟨first, second⟩, inside, same⟩ := Option.map_eq_some_iff.mp found
      simp only [Prod.mk.injEq] at same
      obtain ⟨rfl, rfl⟩ := same
      have whole := eq_of_cut separator more first second inside
      have absent : ¬separator.isPrefixOf (c :: (first ++ separator ++ rest)) = true := by
        intro starts
        apply missing
        rw [List.isPrefixOf_iff_prefix] at starts ⊢
        have short : separator.length ≤ (c :: (first ++ separator)).length := by
          simp only [List.length_cons, List.length_append]
          omega
        have present := (prefix_append_iff separator (c :: (first ++ separator)) rest short).mp
          (by simpa using starts)
        rw [whole]
        exact present.trans (by simp)
      have deeper := inductionHypothesis first second inside
      simp only [List.append_assoc] at deeper absent ⊢
      simp [cut?, absent, deeper]

end Text

namespace Span

/-- The same span with everything before it `offset` characters longer. -/
def moved (offset : Nat) (span : Span) : Span :=
  { span with start := offset + span.start, stop := offset + span.stop }

/-! ## Words and blobs -/

/-- A word is read up to where its text stops being one. -/
theorem word?_eq_some_iff (text word rest : Text) :
    word? text = some (word, rest) ↔
      text = word ++ rest ∧ word.IsWordRun ∧ rest.StopsAt Text.isWord := by
  constructor
  · intro read
    simp only [word?] at read
    split at read
    · simp at read
    · rename_i inhabited
      simp only [Option.some.injEq, Prod.mk.injEq] at read
      obtain ⟨rfl, rfl⟩ := read
      refine ⟨List.takeWhile_append_dropWhile.symm, ⟨?_, ?_⟩, Text.stopsAt_dropWhile _ text⟩
      · simpa using inhabited
      · intro c present
        exact List.mem_takeWhile_imp present
  · rintro ⟨rfl, run, stops⟩
    simp only [word?, Text.takeWhile_run Text.isWord word rest run.2 stops,
      Text.dropWhile_run Text.isWord word rest run.2 stops]
    simp [run.1]

/-- No blob at all, or braces around characters that are no closing brace and, unless the blob
    may have several lines, no line feed. -/
def IsBlob (multiline : Bool) (blob : Text) : Prop :=
  blob = [] ∨ ∃ inside, blob = '{' :: (inside ++ ['}']) ∧ '}' ∉ inside ∧
    (multiline = false → '\n' ∉ inside)

/-- Where there is no blob, none opens. -/
def Opens (blob rest : Text) : Prop := blob = [] → rest.head? ≠ some '{'

/-- The inside of a blob ends at its first closing brace. -/
theorem inside_eq (inside rest : Text) (unclosed : '}' ∉ inside) :
    (inside ++ '}' :: rest).takeWhile (· != '}') = inside := by
  apply Text.takeWhile_run
  · intro c present
    simpa using fun same : c = '}' => unclosed (same ▸ present)
  · simp [Text.stopsAt_cons]

/-- A text has one first closing brace. -/
theorem inside_unique (first second rest more : Text) (unclosed : '}' ∉ first)
    (closed : '}' ∉ second) (same : first ++ '}' :: rest = second ++ '}' :: more) :
    first = second ∧ rest = more := by
  have inside : first = second := by
    rw [← inside_eq first rest unclosed, same, inside_eq second more closed]
  subst inside
  simpa using same

/-- A blob is read as long as it is, whatever follows. -/
theorem blobLength?_append (multiline : Bool) (blob rest : Text) (closed : IsBlob multiline blob)
    (opens : Opens blob rest) : blobLength? multiline (blob ++ rest) = some blob.length := by
  rcases closed with rfl | ⟨inside, rfl, unclosed, lines⟩
  · have absent := opens rfl
    cases rest with
    | nil => simp [blobLength?]
    | cons c more =>
      simp only [List.nil_append, List.head?_cons, ne_eq, Option.some.injEq] at absent ⊢
      simp [blobLength?, absent]
  · have same := inside_eq inside rest unclosed
    have whole : '{' :: (inside ++ ['}']) ++ rest = '{' :: (inside ++ '}' :: rest) := by simp
    rw [whole]
    simp only [blobLength?, same]
    simpa using lines

/-- A blob that is read stands in front of the text, closed, with what follows as its reader wants
    it. -/
theorem exists_of_blobLength (multiline : Bool) (text : Text) (length : Nat)
    (read : blobLength? multiline text = some length) :
    ∃ blob rest, text = blob ++ rest ∧ length = blob.length ∧ IsBlob multiline blob ∧
      Opens blob rest := by
  unfold blobLength? at read
  split at read
  · rename_i rest
    simp only at read
    split at read
    · simp at read
    · rename_i unequal
      split at read
      · simp at read
      · rename_i single
        simp only [Option.some.injEq] at read
        -- the run of other characters ends before the text does, so a closing brace follows it
        have parts := List.takeWhile_append_dropWhile (p := (· != '}')) (l := rest)
        have stops := Text.stopsAt_dropWhile (· != '}') rest
        cases after : rest.dropWhile (· != '}') with
        | nil =>
          rw [after, List.append_nil] at parts
          exact absurd (congrArg List.length parts) unequal
        | cons c more =>
          rw [after] at parts stops
          have brace : c = '}' := by simpa [Text.stopsAt_cons] using stops
          subst brace
          refine ⟨'{' :: (rest.takeWhile (· != '}') ++ ['}']), more, ?_, ?_, Or.inr
            ⟨_, rfl, ?_, ?_⟩, by simp [Opens]⟩
          · simpa using parts.symm
          · simp [← read]
          · intro present
            simpa using List.mem_takeWhile_imp present
          · rintro rfl
            simpa using single
  · rename_i unopened
    simp only [Option.some.injEq] at read
    refine ⟨[], text, rfl, by simp [← read], Or.inl rfl, ?_⟩
    intro _ opened
    cases text with
    | nil => simp at opened
    | cons c rest =>
      simp only [List.head?_cons, Option.some.injEq] at opened
      exact unopened rest (by rw [opened])

/-! ## Heads -/

/-- A directive begins with a marker and a whole word. -/
theorem inlineHead?_eq_some_iff (text action rest : Text) :
    inlineHead? text = some (action, rest) ↔
      text = marker ++ (action ++ rest) ∧ action.IsWordRun ∧ rest.StopsAt Text.isWord := by
  rw [inlineHead?]
  rw [Option.bind_eq_some_iff]
  constructor
  · rintro ⟨later, taken, read⟩
    obtain ⟨rfl, run, stops⟩ := (word?_eq_some_iff later action rest).mp read
    exact ⟨(Text.after?_eq_some_iff marker text _).mp taken, run, stops⟩
  · rintro ⟨rfl, run, stops⟩
    exact ⟨action ++ rest, (Text.after?_eq_some_iff marker _ _).mpr rfl,
      (word?_eq_some_iff _ action rest).mpr ⟨rfl, run, stops⟩⟩

/-- What a token begins with. -/
def placeholderOpening (action : Text) (mode : Mode) : Text :=
  '[' :: (action ++ '-' :: mode.word)

/-- A token begins with a bracket, a whole word, a hyphen and a mode. -/
theorem placeholderHead?_eq_some_iff (text action : Text) (mode : Mode) (rest : Text) :
    placeholderHead? text = some (action, mode, rest) ↔
      text = placeholderOpening action mode ++ rest ∧ action.IsWordRun := by
  constructor
  · intro read
    rw [placeholderHead?] at read
    split at read
    · simp at read
    · rename_i word later opened
      obtain ⟨tail, bracket, named⟩ := Option.bind_eq_some_iff.mp opened
      obtain ⟨rfl, run, _⟩ := (word?_eq_some_iff tail word later).mp named
      have begins := (Text.after?_eq_some_iff ['['] text _).mp bracket
      split at read
      · rename_i more inlineMode
        simp only [Option.some.injEq, Prod.mk.injEq] at read
        obtain ⟨rfl, rfl, rfl⟩ := read
        have ends := (Text.after?_eq_some_iff _ later more).mp inlineMode
        exact ⟨by simp [begins, ends, placeholderOpening], run⟩
      · rename_i more _ blockMode
        simp only [Option.some.injEq, Prod.mk.injEq] at read
        obtain ⟨rfl, rfl, rfl⟩ := read
        have ends := (Text.after?_eq_some_iff _ later more).mp blockMode
        exact ⟨by simp [begins, ends, placeholderOpening], run⟩
      · simp at read
  · rintro ⟨rfl, run⟩
    have bracket : Text.after? ['['] (placeholderOpening action mode ++ rest) =
        some (action ++ ('-' :: mode.word ++ rest)) :=
      (Text.after?_eq_some_iff _ _ _).mpr (by simp [placeholderOpening])
    have stops : Text.StopsAt Text.isWord ('-' :: mode.word ++ rest) := by
      simpa [Text.stopsAt_cons] using (by decide : Text.isWord '-' = false)
    have named := (word?_eq_some_iff _ action _).mpr ⟨rfl, run, stops⟩
    rw [placeholderHead?]
    simp only [bracket, Option.bind_some, named]
    cases mode <;> simp [afterMode?, Text.after?, Mode.word, List.isPrefixOf]

end Span

/-! ## Directives -/

/-- The parts of a written directive. The spacing is as long as it can be, and the payload holds
    no marker, nor begins one that its closing marker completes. -/
structure Directive where
  action : Text
  blob : Text
  spacing : Text
  payload : Text
  action_word : action.IsWordRun
  blob_closed : Span.IsBlob false blob
  spacing_inhabited : spacing ≠ []
  spacing_all : ∀ c ∈ spacing, Text.isSpacing c = true
  payload_start : payload.StopsAt Text.isSpacing
  payload_end : Text.cut? Span.marker (payload ++ Span.marker) = some (payload, [])

namespace Directive

/-- What follows the action. -/
def afterAction (directive : Directive) : Text :=
  directive.blob ++ (directive.spacing ++ (directive.payload ++ Span.marker))

/-- The parts one after the other, between two markers. -/
def written (directive : Directive) : Text :=
  Span.marker ++ (directive.action ++ directive.afterAction)

/-- The span that a directive has at a position. -/
def span (directive : Directive) (pos : Nat) : Span where
  mode := .inline
  action := directive.action
  start := pos
  stop := pos + directive.written.length
  blob := directive.blob
  payload := Span.withoutLastSpacing directive.payload
  isPlaceholder := false

/-- Spacing begins no word and no blob. -/
theorem stopsAt_afterAction (directive : Directive) (rest : Text) :
    (directive.afterAction ++ rest).StopsAt Text.isWord ∧
      Span.Opens directive.blob (directive.spacing ++ rest) := by
  obtain ⟨first, more, same⟩ := List.exists_cons_of_ne_nil directive.spacing_inhabited
  have blank : first = ' ' ∨ first = '\t' := by
    simpa [Text.isSpacing] using directive.spacing_all first (by simp [same])
  constructor
  · rcases directive.blob_closed with empty | ⟨inside, braces, _⟩
    · rcases blank with rfl | rfl
      · simpa [afterAction, empty, same, Text.stopsAt_cons] using
          (by decide : Text.isWord ' ' = false)
      · simpa [afterAction, empty, same, Text.stopsAt_cons] using
          (by decide : Text.isWord '\t' = false)
    · simpa [afterAction, braces, Text.stopsAt_cons] using
        (by decide : Text.isWord '{' = false)
  · intro _ opened
    rcases blank with rfl | rfl <;> simp [same] at opened

/-- What a directive has before its payload stands on one line. -/
theorem lineFeed_not_mem_head (directive : Directive) :
    '\n' ∉ Span.marker ++ (directive.action ++ (directive.blob ++ directive.spacing)) := by
  have inAction := directive.action_word.not_mem '\n' (by decide)
  have inSpacing : '\n' ∉ directive.spacing := by
    intro present
    exact absurd (directive.spacing_all '\n' present) (by decide)
  have inBlob : '\n' ∉ directive.blob := by
    rcases directive.blob_closed with empty | ⟨inside, braces, _, single⟩
    · simp [empty]
    · simp [braces, single rfl]
  simp [Span.marker, inAction, inBlob, inSpacing]

/-- The spacing of a directive is over where its payload begins. -/
theorem stopsAt_payload (directive : Directive) (rest : Text) :
    (directive.payload ++ (Span.marker ++ rest)).StopsAt Text.isSpacing := by
  have start := directive.payload_start
  cases same : directive.payload with
  | nil => simpa [Span.marker, Text.stopsAt_cons] using (by decide : Text.isSpacing ':' = false)
  | cons c more =>
    rw [same] at start
    simpa [Text.stopsAt_cons] using start

/-- A written directive is read wherever it stands. -/
theorem read_written (directive : Directive) (rest : Text) (pos : Nat) :
    Span.inlineHere? (directive.written ++ rest) pos = some (directive.span pos) := by
  obtain ⟨wordStops, blobOpens⟩ := directive.stopsAt_afterAction rest
  have head : Span.inlineHead? (directive.written ++ rest) =
      some (directive.action, directive.afterAction ++ rest) :=
    (Span.inlineHead?_eq_some_iff _ _ _).mpr
      ⟨by simp [written], directive.action_word, wordStops⟩
  have blobRead : Span.blobLength? false (directive.afterAction ++ rest) =
      some directive.blob.length := by
    have opens := (directive.stopsAt_afterAction (directive.payload ++ Span.marker ++ rest)).2
    have read := Span.blobLength?_append false directive.blob _ directive.blob_closed opens
    simpa [afterAction] using read
  have ends := directive.stopsAt_payload rest
  have spacingRead := Text.takeWhile_run _ _ _ directive.spacing_all ends
  have spacingLeft := Text.dropWhile_run _ _ _ directive.spacing_all ends
  have payloadRead := Text.cut?_append _ _ _ _ directive.payload_end (by decide) rest
  have body : (directive.afterAction ++ rest).drop directive.blob.length =
      directive.spacing ++ (directive.payload ++ (Span.marker ++ rest)) := by
    simp [afterAction]
  rw [List.append_assoc] at payloadRead
  simp only [Span.inlineHere?, head, blobRead, Option.bind_some, Span.inlineOf?, body,
    spacingRead, spacingLeft, payloadRead, Option.map_some]
  have inhabited : ¬directive.spacing.isEmpty = true := by
    simpa using directive.spacing_inhabited
  rw [if_neg inhabited]
  simp only [span, written, Option.some.injEq, Span.mk.injEq, true_and, and_true]
  simp only [afterAction, List.length_append, List.append_assoc, List.take_left, and_true]
  omega

/-- Parts that fit together begin with a written directive when a marker follows the spacing. -/
theorem exists_of_parts (action blob spacing body : Text) (word : action.IsWordRun)
    (closed : Span.IsBlob false blob) (inhabited : spacing ≠ [])
    (blank : ∀ c ∈ spacing, Text.isSpacing c = true) (start : body.StopsAt Text.isSpacing)
    (payload rest : Text) (found : Text.cut? Span.marker body = some (payload, rest)) :
    ∃ directive : Directive,
      Span.marker ++ (action ++ (blob ++ (spacing ++ body))) = directive.written ++ rest ∧
      directive.action = action ∧ directive.blob = blob ∧ directive.spacing = spacing ∧
      directive.payload = payload := by
  have whole := Text.eq_of_cut _ _ _ _ found
  let directive : Directive :=
    { action, blob, spacing, payload
      action_word := word
      blob_closed := closed
      spacing_inhabited := inhabited
      spacing_all := blank
      payload_start := by
        intro c present
        apply start c
        cases payload with
        | nil => simp at present
        | cons first more =>
          rw [whole]
          simpa using present
      payload_end := by simpa using Text.cut?_append _ _ _ _ found (by decide) [] }
  exact ⟨directive, by simp [written, afterAction, directive, whole], rfl, rfl, rfl, rfl⟩

/-- Whatever is read as a directive is a written one at the beginning of the text. -/
theorem exists_of_read (text : Text) (pos : Nat) (found : Span)
    (read : Span.inlineHere? text pos = some found) :
    ∃ directive : Directive, ∃ rest, text = directive.written ++ rest ∧
      found = directive.span pos := by
  rw [Span.inlineHere?] at read
  split at read
  · simp at read
  · rename_i action later head
    obtain ⟨length, blobRead, bodyRead⟩ := Option.bind_eq_some_iff.mp read
    obtain ⟨begins, run, _⟩ := (Span.inlineHead?_eq_some_iff text action later).mp head
    obtain ⟨blob, body, rfl, rfl, closed, _⟩ :=
      Span.exists_of_blobLength false later length blobRead
    simp only [Span.inlineOf?, List.drop_left] at bodyRead
    split at bodyRead
    · simp at bodyRead
    · rename_i inhabited
      obtain ⟨⟨payload, rest⟩, cut, same⟩ := Option.map_eq_some_iff.mp bodyRead
      obtain ⟨directive, parts, sameAction, sameBlob, sameSpacing, samePayload⟩ :=
        exists_of_parts action blob (body.takeWhile Text.isSpacing) _ run closed
          (by simpa using inhabited) (fun c present => List.mem_takeWhile_imp present)
          (Text.stopsAt_dropWhile Text.isSpacing body) payload rest cut
      rw [List.takeWhile_append_dropWhile] at parts
      refine ⟨directive, rest, by rw [begins, parts], ?_⟩
      rw [← same]
      simp only [span, written, afterAction, sameAction, sameBlob, sameSpacing, samePayload,
        Span.mk.injEq, true_and, and_true, List.take_left, List.length_append]
      omega

end Directive

/-! ## Tokens -/

/-- The parts of a written token. -/
structure Placeholder where
  action : Text
  mode : Mode
  blob : Text
  action_word : action.IsWordRun
  blob_closed : Span.IsBlob true blob

namespace Placeholder

/-- The parts one after the other, in brackets. -/
def written (placeholder : Placeholder) : Text :=
  Span.placeholderOpening placeholder.action placeholder.mode ++ (placeholder.blob ++ [']'])

/-- A token is its bracket and its head, and then its blob and the closing bracket. -/
theorem written_append (placeholder : Placeholder) (rest : Text) :
    placeholder.written ++ rest = '[' :: ((placeholder.action ++ '-' :: placeholder.mode.word) ++
      (placeholder.blob ++ ']' :: rest)) := by
  simp [written, Span.placeholderOpening]

/-- The head of a token opens no token and closes no blob. -/
theorem not_mem_head (placeholder : Placeholder) :
    '[' ∉ placeholder.action ++ '-' :: placeholder.mode.word ∧
      '}' ∉ placeholder.action ++ '-' :: placeholder.mode.word := by
  have mode : '[' ∉ '-' :: placeholder.mode.word ∧ '}' ∉ '-' :: placeholder.mode.word := by
    cases placeholder.mode <;> decide
  exact ⟨List.not_mem_append (placeholder.action_word.not_mem '[' (by decide)) mode.1,
    List.not_mem_append (placeholder.action_word.not_mem '}' (by decide)) mode.2⟩

/-- The span that a token has at a position. -/
def span (placeholder : Placeholder) (pos : Nat) : Span where
  mode := placeholder.mode
  action := placeholder.action
  start := pos
  stop := pos + placeholder.written.length
  blob := placeholder.blob
  payload := []
  isPlaceholder := true

/-- A written token is read wherever it stands. -/
theorem read_written (placeholder : Placeholder) (rest : Text) (pos : Nat) :
    Span.placeholderHere? (placeholder.written ++ rest) pos = some (placeholder.span pos) := by
  have head : Span.placeholderHead? (placeholder.written ++ rest) =
      some (placeholder.action, placeholder.mode, placeholder.blob ++ (']' :: rest)) :=
    (Span.placeholderHead?_eq_some_iff _ _ _ _).mpr
      ⟨by simp [written], placeholder.action_word⟩
  have blobRead := Span.blobLength?_append true placeholder.blob (']' :: rest)
    placeholder.blob_closed (by simp [Span.Opens])
  simp only [Span.placeholderHere?, head, blobRead, Option.bind_some, Span.placeholderOf?,
    List.drop_left, List.take_left]
  simp only [span, written, Option.some.injEq, Span.mk.injEq, true_and, and_true,
    Span.placeholderOpening, Span.placeholderHeadLength, List.length_append, List.length_cons,
    List.length_nil]
  omega

/-- Whatever is read as a token is a written one at the beginning of the text. -/
theorem exists_of_read (text : Text) (pos : Nat) (found : Span)
    (read : Span.placeholderHere? text pos = some found) :
    ∃ placeholder : Placeholder, ∃ rest, text = placeholder.written ++ rest ∧
      found = placeholder.span pos := by
  rw [Span.placeholderHere?] at read
  split at read
  · simp at read
  · rename_i action mode later head
    obtain ⟨length, blobRead, tailRead⟩ := Option.bind_eq_some_iff.mp read
    obtain ⟨begins, run⟩ := (Span.placeholderHead?_eq_some_iff text action mode later).mp head
    obtain ⟨blob, tail, rfl, rfl, closed, _⟩ :=
      Span.exists_of_blobLength true later length blobRead
    simp only [Span.placeholderOf?, List.drop_left, List.take_left] at tailRead
    split at tailRead
    · rename_i rest _
      simp only [Option.some.injEq] at tailRead
      refine ⟨⟨action, mode, blob, run, closed⟩, rest, ?_, ?_⟩
      · simp [begins, written]
      · rw [← tailRead]
        simp only [span, written, Span.mk.injEq, true_and, and_true,
          Span.placeholderOpening, Span.placeholderHeadLength, List.length_append,
          List.length_cons, List.length_nil]
        omega
    · simp at tailRead

end Placeholder

end HiddenContent
