import HiddenContent.Proofs.Payload
import HiddenContent.Proofs.TokenText

/-!
# Reading stored text again

A stored text differs from what the author wrote in the directives that became tokens. It is read
like the author's text when every form stays the form it was and no new one arises. A new form can
only arise where a head before a directive left a blob open: a directive that takes a closing
brace or a line feed away with it decides whether that blob closes, and where. In a `calm` text no
directive does this. Then the pieces of the stored text are the pieces of the text, with a token
in the place of each hidden directive.

The comparison is made by `Redacted`, a relation between two texts that knows nothing of pieces: a
new form is refuted by finding its parts, one after the other, in the text before encoding.
-/

namespace HiddenContent

/-- True for a part that can stand in an open blob without closing it or breaking its line. -/
def IsSealed (part : Text) : Prop := '}' ∉ part ∧ '\n' ∉ part

/-- Two texts that are the same but for directives in the first, in whose places the second has
    tokens. Behind a guard, the directives and tokens before the first closing brace are sealed. -/
inductive Redacted : (guarded : Bool) → (text stored : Text) → Prop where
  | done {guarded : Bool} : Redacted guarded [] []
  | keep {guarded : Bool} {text stored : Text} (c : Char)
      (later : Redacted (guarded && c != '}') text stored) :
      Redacted guarded (c :: text) (c :: stored)
  | replace {guarded : Bool} {text stored : Text} (directive : Directive) (token : Placeholder)
      (intact : guarded = true → IsSealed directive.written ∧ IsSealed token.written)
      (later : Redacted guarded text stored) :
      Redacted guarded (directive.written ++ text) (token.written ++ stored)

/-- A directive begins with a colon. -/
theorem Directive.written_eq_cons (directive : Directive) :
    ∃ rest, directive.written = ':' :: rest := ⟨_, rfl⟩

/-- A token begins with a bracket. -/
theorem Placeholder.written_eq_cons (placeholder : Placeholder) :
    ∃ rest, placeholder.written = '[' :: rest := ⟨_, rfl⟩

namespace Redacted

/-- Without a guard, less is asked of what is replaced. -/
theorem unguarded {guarded : Bool} {text stored : Text} (redacted : Redacted guarded text stored) :
    Redacted false text stored := by
  induction redacted with
  | done => exact .done
  | keep c later inductionHypothesis => exact .keep c inductionHypothesis
  | replace directive token intact later inductionHypothesis =>
    exact .replace directive token (by simp) inductionHypothesis

/-- A part before both texts lifts the guard when it closes a brace. -/
theorem keepAll (part : Text) {guarded : Bool} {text stored : Text}
    (later : Redacted (guarded && !part.contains '}') text stored) :
    Redacted guarded (part ++ text) (part ++ stored) := by
  induction part generalizing guarded with
  | nil => simpa using later
  | cons c rest inductionHypothesis =>
    refine .keep c (inductionHypothesis ?_)
    have guards : (guarded && c != '}' && !rest.contains '}') =
        (guarded && !(c :: rest).contains '}') := by
      have spelled : (c != '}') = !('}' == c) := by
        simp only [bne, Bool.not_inj_iff]
        exact Bool.beq_comm
      rw [List.contains_cons, Bool.not_or, spelled, Bool.and_assoc]
    rw [guards]
    exact later

/-- A beginning of the stored text that opens no token is a beginning of the text. -/
theorem exists_text {guarded : Bool} {text : Text} (beginning rest : Text)
    (unopened : '[' ∉ beginning) (unclosed : '}' ∉ beginning)
    (redacted : Redacted guarded text (beginning ++ rest)) :
    ∃ more, text = beginning ++ more ∧ Redacted guarded more rest := by
  induction beginning generalizing text with
  | nil => exact ⟨text, rfl, redacted⟩
  | cons c others inductionHypothesis =>
    rw [List.mem_cons, not_or] at unopened unclosed
    generalize same : c :: others ++ rest = stored at redacted
    cases redacted with
    | done => simp at same
    | keep d later =>
      simp only [List.cons_append, List.cons.injEq] at same
      obtain ⟨rfl, rfl⟩ := same
      have unbroken : (c != '}') = true := by simpa using Ne.symm unclosed.1
      rw [unbroken, Bool.and_true] at later
      obtain ⟨more, rfl, further⟩ := inductionHypothesis unopened.2 unclosed.2 later
      exact ⟨more, rfl, further⟩
    | replace directive token intact later =>
      obtain ⟨tail, begins⟩ := token.written_eq_cons
      rw [begins] at same
      simp only [List.cons_append, List.cons.injEq] at same
      exact absurd same.1.symm unopened.1

/-- A beginning of the text that opens no directive is a beginning of the stored text. -/
theorem exists_stored {guarded : Bool} {stored : Text} (beginning rest : Text)
    (unopened : ':' ∉ beginning) (unclosed : '}' ∉ beginning)
    (redacted : Redacted guarded (beginning ++ rest) stored) :
    ∃ more, stored = beginning ++ more ∧ Redacted guarded rest more := by
  induction beginning generalizing stored with
  | nil => exact ⟨stored, rfl, redacted⟩
  | cons c others inductionHypothesis =>
    rw [List.mem_cons, not_or] at unopened unclosed
    generalize same : c :: others ++ rest = text at redacted
    cases redacted with
    | done => simp at same
    | keep d later =>
      simp only [List.cons_append, List.cons.injEq] at same
      obtain ⟨rfl, rfl⟩ := same
      have unbroken : (c != '}') = true := by simpa using Ne.symm unclosed.1
      rw [unbroken, Bool.and_true] at later
      obtain ⟨more, rfl, further⟩ := inductionHypothesis unopened.2 unclosed.2 later
      exact ⟨more, rfl, further⟩
    | replace directive token intact later =>
      obtain ⟨tail, begins⟩ := directive.written_eq_cons
      rw [begins] at same
      simp only [List.cons_append, List.cons.injEq] at same
      exact absurd same.1.symm unopened.1

/-- The end of the stored text is the end of the text. -/
theorem text_eq_nil {guarded : Bool} {text : Text} (redacted : Redacted guarded text []) :
    text = [] := by
  generalize same : ([] : Text) = stored at redacted
  cases redacted with
  | done => rfl
  | keep c later => simp at same
  | replace directive token intact later =>
    obtain ⟨tail, begins⟩ := token.written_eq_cons
    simp [begins] at same

/-- The empty text is redacted to the empty text. -/
theorem stored_eq_nil {guarded : Bool} {stored : Text} (redacted : Redacted guarded [] stored) :
    stored = [] := by
  generalize same : ([] : Text) = text at redacted
  cases redacted with
  | done => rfl
  | keep c later => simp at same
  | replace directive token intact later =>
    obtain ⟨tail, begins⟩ := directive.written_eq_cons
    simp [begins] at same

/-- The text stops where the stored text stops, for a class without colons. -/
theorem stopsAt {guarded : Bool} {text stored : Text} (redacted : Redacted guarded text stored)
    (belongs : Char → Bool) (colon : belongs ':' = false) (stops : stored.StopsAt belongs) :
    text.StopsAt belongs := by
  cases redacted with
  | done => exact stops
  | keep c later => exact stops
  | replace directive token intact later =>
    obtain ⟨tail, begins⟩ := directive.written_eq_cons
    rw [begins, List.cons_append, Text.stopsAt_cons]
    exact colon

/-- A marker in the stored text is one in the text, or its directive was written with one. -/
theorem marker_infix {guarded : Bool} {text stored : Text}
    (redacted : Redacted guarded text stored) (present : Span.marker <:+: stored) :
    Span.marker <:+: text := by
  induction redacted with
  | done => exact present
  | @keep guarded text stored c later inductionHypothesis =>
    rcases List.infix_cons_iff.mp present with ⟨rest, begins⟩ | inside
    · have whole : Redacted guarded (c :: text) (Span.marker ++ rest) := by
        rw [begins]
        exact .keep c later
      obtain ⟨more, same, _⟩ := exists_text Span.marker rest (by decide) (by decide) whole
      rw [same]
      exact ⟨[], more, by simp⟩
    · exact List.infix_cons_iff.mpr (Or.inr (inductionHypothesis inside))
  | replace directive token intact later inductionHypothesis =>
    exact ⟨[], directive.action ++ (directive.afterAction ++ _), by
      simp only [Directive.written, List.nil_append, List.append_assoc]
      rfl⟩

/-- Behind a guard, both texts have their first closing brace at the same place: what stands before
    it has a line feed in both or in neither, and what follows it is redacted. -/
theorem braces {text stored : Text} (redacted : Redacted true text stored) :
    ('}' ∉ text ∧ '}' ∉ stored) ∨
      ∃ inside rest written more, text = inside ++ '}' :: rest ∧
        stored = written ++ '}' :: more ∧ '}' ∉ inside ∧ '}' ∉ written ∧
        ('\n' ∈ inside ↔ '\n' ∈ written) ∧ Redacted false rest more := by
  generalize guard : true = guarded at redacted
  induction redacted with
  | done => exact Or.inl ⟨by simp, by simp⟩
  | @keep guarded text stored c later inductionHypothesis =>
    subst guard
    by_cases brace : c = '}'
    · subst brace
      exact Or.inr ⟨[], text, [], stored, rfl, rfl, by simp, by simp, Iff.rfl, later.unguarded⟩
    · have other : '}' ≠ c := fun same => brace same.symm
      rcases inductionHypothesis (by simpa using brace) with
        ⟨first, second⟩ | ⟨inside, rest, written, more, rfl, rfl, unclosed, closed, lines, after⟩
      · exact Or.inl ⟨by simp [other, first], by simp [other, second]⟩
      · refine Or.inr ⟨c :: inside, rest, c :: written, more, rfl, rfl, ?_, ?_, ?_, after⟩
        · simp [other, unclosed]
        · simp [other, closed]
        · simp [lines]
  | replace directive token intact later inductionHypothesis =>
    subst guard
    obtain ⟨⟨textBrace, textLine⟩, tokenBrace, tokenLine⟩ := intact rfl
    rcases inductionHypothesis rfl with
      ⟨first, second⟩ | ⟨inside, rest, written, more, rfl, rfl, unclosed, closed, lines, after⟩
    · exact Or.inl ⟨by simp [textBrace, first], by simp [tokenBrace, second]⟩
    · refine Or.inr ⟨directive.written ++ inside, rest, token.written ++ written, more,
        by simp, by simp, ?_, ?_, ?_, after⟩
      · simp [textBrace, unclosed]
      · simp [tokenBrace, closed]
      · simp [textLine, tokenLine, lines]

end Redacted

/-! ## What is refused stays refused -/

/-- True for a text that begins with a head whose blob is open. -/
def opensBlob (text : Text) : Bool :=
  (Span.inlineHead? text).any (fun (_, rest) => rest.head? == some '{') ||
    (Span.placeholderHead? text).any fun (_, _, rest) => rest.head? == some '{'

/-- A blob is open after a marker and a word, or after the beginning of a token. -/
theorem opensBlob_iff (text : Text) :
    opensBlob text = true ↔
      (∃ action rest, action.IsWordRun ∧ text = Span.marker ++ (action ++ '{' :: rest)) ∨
        ∃ action mode rest, action.IsWordRun ∧
          text = Span.placeholderOpening action mode ++ '{' :: rest := by
  have brace (rest : Text) : Text.StopsAt Text.isWord ('{' :: rest) :=
    (Text.stopsAt_cons _ _ _).mpr (by decide)
  rw [opensBlob]
  rw [Bool.or_eq_true, Option.any_eq_true, Option.any_eq_true]
  constructor
  · rintro (⟨⟨action, rest⟩, head, opened⟩ | ⟨⟨action, mode, rest⟩, head, opened⟩)
    · obtain ⟨whole, word, _⟩ := (Span.inlineHead?_eq_some_iff _ _ _).mp head
      obtain ⟨more, rfl⟩ := List.head?_eq_some_iff.mp (beq_iff_eq.mp opened)
      exact Or.inl ⟨action, more, word, whole⟩
    · obtain ⟨whole, word⟩ := (Span.placeholderHead?_eq_some_iff _ _ _ _).mp head
      obtain ⟨more, rfl⟩ := List.head?_eq_some_iff.mp (beq_iff_eq.mp opened)
      exact Or.inr ⟨action, mode, more, word, whole⟩
  · rintro (⟨action, rest, word, whole⟩ | ⟨action, mode, rest, word, whole⟩)
    · have head := (Span.inlineHead?_eq_some_iff _ _ _).mpr ⟨whole, word, brace rest⟩
      exact Or.inl ⟨_, head, by simp⟩
    · have head := (Span.placeholderHead?_eq_some_iff _ _ _ _).mpr ⟨whole, word⟩
      exact Or.inr ⟨_, head, by simp⟩

namespace Redacted

/-- A blob of the stored text was a blob of the text, behind a guard. -/
theorem exists_blob {guarded : Bool} {text : Text} (multiline : Bool) (blob rest : Text)
    (closed : Span.IsBlob multiline blob)
    (redacted : Redacted guarded text (blob ++ rest))
    (guards : text.head? = some '{' → guarded = true) :
    ∃ before more, text = before ++ more ∧ Span.IsBlob multiline before ∧
      (blob = [] → before = []) ∧ Redacted false more rest := by
  rcases closed with rfl | ⟨inside, rfl, unclosed, lines⟩
  · exact ⟨[], text, rfl, Or.inl rfl, fun _ => rfl, redacted.unguarded⟩
  · have parts : '{' :: (inside ++ ['}']) ++ rest = ['{'] ++ (inside ++ '}' :: rest) := by simp
    rw [parts] at redacted
    obtain ⟨more, rfl, later⟩ := exists_text ['{'] _ (by decide) (by decide) redacted
    have guard := guards (by simp)
    subst guard
    rcases later.braces with
      ⟨_, absent⟩ | ⟨first, second, written, others, rfl, same, unbroken, shut, breaks, after⟩
    · exact absurd (by simp) absent
    · obtain ⟨rfl, rfl⟩ := Span.inside_unique inside written rest others unclosed shut same
      refine ⟨'{' :: (first ++ ['}']), second, by simp, Or.inr ⟨first, rfl, unbroken, ?_⟩,
        by simp, after⟩
      intro single present
      exact lines single (breaks.mp present)

/-- No directive arises in front of a stored text. -/
theorem inlineHere?_eq_none {c : Char} {text stored : Text}
    (redacted : Redacted (opensBlob (c :: text)) text stored)
    (refused : Span.inlineHere? (c :: text) 0 = none) :
    Span.inlineHere? (c :: stored) 0 = none := by
  cases read : Span.inlineHere? (c :: stored) 0 with
  | none => rfl
  | some found =>
    obtain ⟨directive, rest, same, _⟩ := Directive.exists_of_read _ 0 found read
    have parts : directive.written ++ rest =
        ':' :: ([':', ':'] ++ directive.action ++ (directive.afterAction ++ rest)) := by
      simp [Directive.written, Span.marker]
    rw [parts, List.cons.injEq] at same
    obtain ⟨rfl, rfl⟩ := same
    have unopened : '[' ∉ [':', ':'] ++ directive.action := by
      simp [directive.action_word.not_mem '[' (by decide)]
    have unclosed : '}' ∉ [':', ':'] ++ directive.action := by
      simp [directive.action_word.not_mem '}' (by decide)]
    obtain ⟨more, rfl, later⟩ := exists_text _ _ unopened unclosed redacted
    have whole : ':' :: ([':', ':'] ++ directive.action ++ more) =
        Span.marker ++ (directive.action ++ more) := by simp [Span.marker]
    -- the blob, the spacing and the marker are found in the text, one after the other
    have stored : directive.afterAction ++ rest = directive.blob ++
        (directive.spacing ++ (directive.payload ++ (Span.marker ++ rest))) := by
      simp [Directive.afterAction]
    rw [stored] at later
    obtain ⟨blob, body, rfl, closed, _, afterBlob⟩ := later.exists_blob false directive.blob _
      directive.blob_closed (by
        intro opened
        obtain ⟨tail, rfl⟩ := List.head?_eq_some_iff.mp opened
        exact (opensBlob_iff _).mpr (Or.inl ⟨_, tail, directive.action_word, whole⟩))
    have spacing (c : Char) (other : Text.isSpacing c = false) : c ∉ directive.spacing := by
      intro present
      rw [directive.spacing_all c present] at other
      exact absurd other (by simp)
    obtain ⟨payload, rfl, afterSpacing⟩ :=
      exists_text _ _ (spacing '[' (by decide)) (spacing '}' (by decide)) afterBlob
    have start := afterSpacing.stopsAt Text.isSpacing (by decide) (directive.stopsAt_payload rest)
    have marked := afterSpacing.marker_infix ⟨directive.payload, rest, by simp⟩
    obtain ⟨⟨before, after⟩, found⟩ :=
      Option.isSome_iff_exists.mp ((Text.cut?_isSome_iff Span.marker payload).mpr marked)
    obtain ⟨written, begins, _⟩ := Directive.exists_of_parts directive.action blob
      directive.spacing payload directive.action_word closed directive.spacing_inhabited
      directive.spacing_all start before after found
    rw [whole, begins, written.read_written] at refused
    exact absurd refused (by simp)

/-- No token arises in front of a stored text, but for those that encoding wrote. -/
theorem placeholderHere?_eq_none {c : Char} {text stored : Text}
    (redacted : Redacted (opensBlob (c :: text)) text stored)
    (refused : Span.placeholderHere? (c :: text) 0 = none) :
    Span.placeholderHere? (c :: stored) 0 = none := by
  cases read : Span.placeholderHere? (c :: stored) 0 with
  | none => rfl
  | some found =>
    obtain ⟨token, rest, same, _⟩ := Placeholder.exists_of_read _ 0 found read
    rw [token.written_append, List.cons.injEq] at same
    obtain ⟨rfl, rfl⟩ := same
    obtain ⟨unopened, unclosed⟩ := token.not_mem_head
    obtain ⟨more, rfl, later⟩ := exists_text _ _ unopened unclosed redacted
    have whole : '[' :: (token.action ++ '-' :: token.mode.word ++ more) =
        Span.placeholderOpening token.action token.mode ++ more := by
      simp [Span.placeholderOpening]
    obtain ⟨blob, tail, rfl, closed, _, afterBlob⟩ := later.exists_blob true token.blob _
      token.blob_closed (by
        intro opened
        obtain ⟨tail, rfl⟩ := List.head?_eq_some_iff.mp opened
        exact (opensBlob_iff _).mpr (Or.inr ⟨_, _, tail, token.action_word, whole⟩))
    obtain ⟨others, rfl, _⟩ := exists_text [']'] rest (by decide) (by decide) afterBlob
    have begins : '[' :: (token.action ++ '-' :: token.mode.word ++ (blob ++ ([']'] ++ others))) =
        (Placeholder.mk token.action token.mode blob token.action_word closed).written ++
          others := by
      simp [Placeholder.written, Span.placeholderOpening]
    rw [begins, Placeholder.read_written] at refused
    exact absurd refused (by simp)

/-- What is refused in front of a text is refused in front of the stored one. -/
theorem refused {c : Char} {text stored : Text}
    (redacted : Redacted (opensBlob (c :: text)) text stored)
    (refused : Reader.all true (c :: text) = none) : Reader.all true (c :: stored) = none := by
  rw [Reader.all_eq_none_iff] at refused ⊢
  exact ⟨redacted.inlineHere?_eq_none refused.1, redacted.placeholderHere?_eq_none refused.2⟩

end Redacted

end HiddenContent
