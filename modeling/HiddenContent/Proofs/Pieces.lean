import HiddenContent.Proofs.Forms
import HiddenContent.Tokens

/-!
# A text as plain characters and forms

The walk over a text cuts it into pieces: characters at which no form starts, and written forms.
`cut` computes the pieces for any reader, and `Scan` says of a sequence of pieces that it is the
walk over its own text. A sequence that is a scan is the only one for its text, so a walk over a
composed text can be found by composing pieces and showing that each is read as before.

A reader is local when what it reads depends on the written form alone. The readers of directives,
of tokens and of both are local, which `Forms` established.
-/

namespace HiddenContent

/-- What reads the form in front of a text, with positions counted from there. -/
abbrev Reader := Text → Option Span

namespace Reader

/-- A written form is read as the same span whatever follows it. -/
structure Reads (reader : Reader) (written : Text) (reading : Span) : Prop where
  start : reading.start = 0
  stop : reading.stop = written.length
  inhabited : written ≠ []
  anywhere : ∀ rest, reader (written ++ rest) = some reading

/-- Whatever is read is read from a written form alone. -/
def IsLocal (reader : Reader) : Prop :=
  ∀ text reading, reader text = some reading →
    ∃ written rest, text = written ++ rest ∧ reader.Reads written reading

/-- A form that is read in the beginning of a text is read in the text. -/
theorem IsLocal.append {reader : Reader} (isLocal : reader.IsLocal) {text : Text}
    {reading : Span} (read : reader text = some reading) (rest : Text) :
    reader (text ++ rest) = some reading := by
  obtain ⟨written, more, rfl, reads⟩ := isLocal text reading read
  rw [List.append_assoc]
  exact reads.anywhere (more ++ rest)

/-- What is refused in a text is refused in every beginning of it. -/
theorem IsLocal.refused_of_append {reader : Reader} (isLocal : reader.IsLocal)
    {text rest : Text} (refused : reader (text ++ rest) = none) : reader text = none := by
  cases read : reader text with
  | none => rfl
  | some reading =>
    rw [isLocal.append read rest] at refused
    exact absurd refused (by simp)

/-- The reader of directives, and of tokens where they are wanted. -/
def all (placeholders : Bool) : Reader := fun text => Tokens.here? placeholders text 0

/-- The reader of tokens alone. -/
def tokens : Reader := fun text => Span.placeholderHere? text 0

end Reader

/-- The span of a directive at a position is its first span, moved there. -/
theorem Directive.span_eq_moved (directive : Directive) (pos : Nat) :
    directive.span pos = (directive.span 0).moved pos := by
  simp [Directive.span, Span.moved]

/-- The span of a token at a position is its first span, moved there. -/
theorem Placeholder.span_eq_moved (placeholder : Placeholder) (pos : Nat) :
    placeholder.span pos = (placeholder.span 0).moved pos := by
  simp [Placeholder.span, Span.moved]

/-- A directive is read at every position as it is read at the first. -/
theorem Span.inlineHere?_eq_moved (text : Text) (pos : Nat) :
    inlineHere? text pos = (inlineHere? text 0).map (moved pos) := by
  cases read : inlineHere? text pos with
  | some found =>
    obtain ⟨directive, rest, rfl, rfl⟩ := Directive.exists_of_read text pos found read
    rw [Directive.read_written, Option.map_some, ← Directive.span_eq_moved]
  | none =>
    cases first : inlineHere? text 0 with
    | none => rfl
    | some found =>
      obtain ⟨directive, rest, rfl, rfl⟩ := Directive.exists_of_read text 0 found first
      rw [Directive.read_written] at read
      exact absurd read (by simp)

/-- A token is read at every position as it is read at the first. -/
theorem Span.placeholderHere?_eq_moved (text : Text) (pos : Nat) :
    placeholderHere? text pos = (placeholderHere? text 0).map (moved pos) := by
  cases read : placeholderHere? text pos with
  | some found =>
    obtain ⟨placeholder, rest, rfl, rfl⟩ := Placeholder.exists_of_read text pos found read
    rw [Placeholder.read_written, Option.map_some, ← Placeholder.span_eq_moved]
  | none =>
    cases first : placeholderHere? text 0 with
    | none => rfl
    | some found =>
      obtain ⟨placeholder, rest, rfl, rfl⟩ := Placeholder.exists_of_read text 0 found first
      rw [Placeholder.read_written] at read
      exact absurd read (by simp)

/-- What both readers read at a position is what they read at the first, moved there. -/
theorem Tokens.here?_eq_moved (placeholders : Bool) (text : Text) (pos : Nat) :
    here? placeholders text pos = (Reader.all placeholders text).map (Span.moved pos) := by
  simp only [Reader.all, here?]
  rw [Span.inlineHere?_eq_moved text pos, Span.placeholderHere?_eq_moved text pos]
  cases Span.inlineHere? text 0 with
  | some found => rfl
  | none => cases placeholders <;> rfl

namespace Reader

/-- A directive stands before a token in the order of readers, and no token begins like one. -/
theorem placeholder_no_directive (placeholder : Placeholder) (rest : Text) (pos : Nat) :
    Span.inlineHere? (placeholder.written ++ rest) pos = none := by
  cases read : Span.inlineHere? (placeholder.written ++ rest) pos with
  | none => rfl
  | some found =>
    obtain ⟨directive, more, same, _⟩ := Directive.exists_of_read _ pos found read
    simp [Placeholder.written, Span.placeholderOpening, Directive.written, Span.marker] at same

/-- The reader of both forms reads a directive wherever it stands. -/
theorem reads_directive (placeholders : Bool) (directive : Directive) :
    (all placeholders).Reads directive.written (directive.span 0) where
  start := rfl
  stop := by simp [Directive.span]
  inhabited := by simp [Directive.written, Span.marker]
  anywhere := fun rest => by simp [all, Tokens.here?, directive.read_written rest 0]

/-- The reader of both forms reads a token wherever it stands. -/
theorem reads_placeholder (placeholder : Placeholder) :
    (all true).Reads placeholder.written (placeholder.span 0) where
  start := rfl
  stop := by simp [Placeholder.span]
  inhabited := by simp [Placeholder.written, Span.placeholderOpening]
  anywhere := fun rest => by
    simp [all, Tokens.here?, placeholder_no_directive placeholder rest 0,
      placeholder.read_written rest 0]

/-- The reader of both forms reads nothing exactly when neither form stands there. -/
theorem all_eq_none_iff (text : Text) :
    all true text = none ↔
      Span.inlineHere? text 0 = none ∧ Span.placeholderHere? text 0 = none := by
  rw [all, Tokens.here?]
  cases Span.inlineHere? text 0 <;> simp

/-- What the reader of both forms reads is a written directive, or a written token where tokens
    are wanted. -/
theorem exists_of_all (placeholders : Bool) (text : Text) (reading : Span)
    (read : all placeholders text = some reading) :
    (∃ directive : Directive, ∃ rest, text = directive.written ++ rest ∧
      reading = directive.span 0) ∨
    (placeholders = true ∧ ∃ placeholder : Placeholder, ∃ rest,
      text = placeholder.written ++ rest ∧ reading = placeholder.span 0) := by
  rw [all, Tokens.here?] at read
  split at read
  · rename_i found directive
    rw [Option.some.injEq] at read
    subst read
    exact Or.inl (Directive.exists_of_read text 0 found directive)
  · split at read
    · rename_i wanted
      exact Or.inr ⟨wanted, Placeholder.exists_of_read text 0 reading read⟩
    · simp at read

/-- A form that is read is one written directive or one written token. -/
theorem Reads.directive_or_token {placeholders : Bool} {written : Text} {reading : Span}
    (reads : (all placeholders).Reads written reading) :
    (∃ directive : Directive, written = directive.written ∧ reading = directive.span 0) ∨
      ∃ placeholder : Placeholder, written = placeholder.written ∧
        reading = placeholder.span 0 := by
  have length := reads.stop
  have read := reads.anywhere []
  rw [List.append_nil] at read
  rcases exists_of_all placeholders written reading read with
    ⟨directive, rest, rfl, rfl⟩ | ⟨_, placeholder, rest, rfl, rfl⟩
  · have empty : rest = [] := by simpa [Directive.span] using length
    exact Or.inl ⟨directive, by simp [empty], rfl⟩
  · have empty : rest = [] := by simpa [Placeholder.span] using length
    exact Or.inr ⟨placeholder, by simp [empty], rfl⟩

/-- What the reader of both forms reads depends on the written form alone. -/
theorem isLocal_all (placeholders : Bool) : (all placeholders).IsLocal := by
  intro text reading read
  rcases exists_of_all placeholders text reading read with
    ⟨directive, rest, same, rfl⟩ | ⟨rfl, placeholder, rest, same, rfl⟩
  · exact ⟨directive.written, rest, same, reads_directive placeholders directive⟩
  · exact ⟨placeholder.written, rest, same, reads_placeholder placeholder⟩

/-- The reader of tokens reads a token wherever it stands. -/
theorem tokens_reads (placeholder : Placeholder) :
    tokens.Reads placeholder.written (placeholder.span 0) where
  start := rfl
  stop := by simp [Placeholder.span]
  inhabited := by simp [Placeholder.written, Span.placeholderOpening]
  anywhere := fun rest => placeholder.read_written rest 0

/-- What the reader of tokens reads depends on the written token alone. -/
theorem isLocal_tokens : tokens.IsLocal := by
  intro text reading read
  obtain ⟨placeholder, rest, same, rfl⟩ := Placeholder.exists_of_read text 0 reading read
  exact ⟨placeholder.written, rest, same, tokens_reads placeholder⟩

end Reader

/-- A plain character, or a written form with its span counted from its own beginning. -/
inductive Piece where
  | plain (c : Char)
  | form (written : Text) (reading : Span)
deriving DecidableEq, Repr

namespace Piece

/-- The characters of a piece. -/
def text : Piece → Text
  | plain c => [c]
  | form written _ => written

/-- The characters of pieces. -/
def textOf (pieces : List Piece) : Text := pieces.flatMap text

/-- No pieces hold no characters. -/
@[simp] theorem textOf_nil : textOf [] = [] := rfl

/-- A plain character comes before what follows it. -/
@[simp] theorem textOf_plain (c : Char) (rest : List Piece) :
    textOf (plain c :: rest) = c :: textOf rest := rfl

/-- The characters of a form come before what follows it. -/
@[simp] theorem textOf_form (written : Text) (reading : Span) (rest : List Piece) :
    textOf (form written reading :: rest) = written ++ textOf rest := rfl

/-- The characters of pieces that follow one another. -/
@[simp] theorem textOf_append (first second : List Piece) :
    textOf (first ++ second) = textOf first ++ textOf second := List.flatMap_append

/-- The spans of pieces whose text begins at a position. -/
def placed : (pos : Nat) → List Piece → List Span
  | _, [] => []
  | pos, plain _ :: rest => placed (pos + 1) rest
  | pos, form written reading :: rest =>
    reading.moved pos :: placed (pos + written.length) rest

/-- Pieces behind others have their spans behind those of the others. -/
theorem placed_append (pos : Nat) (first second : List Piece) :
    placed pos (first ++ second) =
      placed pos first ++ placed (pos + (textOf first).length) second := by
  induction first generalizing pos with
  | nil => simp [placed]
  | cons piece rest inductionHypothesis =>
    cases piece with
    | plain c =>
      simp [placed, inductionHypothesis, Nat.add_assoc, Nat.add_comm 1]
    | form written reading =>
      simp [placed, inductionHypothesis, Nat.add_assoc]

/-- Plain characters have no spans. -/
theorem placed_plains (pos : Nat) (run : Text) : placed pos (run.map plain) = [] := by
  induction run generalizing pos with
  | nil => rfl
  | cons c rest inductionHypothesis => exact inductionHypothesis (pos + 1)

/-- Plain pieces hold the characters they were made of. -/
theorem textOf_plains (run : Text) : textOf (run.map plain) = run := by
  induction run with
  | nil => rfl
  | cons c rest inductionHypothesis => rw [List.map_cons, textOf_plain, inductionHypothesis]

/-- The pieces of a text, after `skip` more characters of the last form. -/
def cutFrom (reader : Reader) : (skip : Nat) → Text → List Piece
  | _, [] => []
  | skip + 1, _ :: rest => cutFrom reader skip rest
  | 0, c :: rest =>
    match reader (c :: rest) with
    | some reading =>
      form ((c :: rest).take reading.stop) reading :: cutFrom reader (reading.stop - 1) rest
    | none => plain c :: cutFrom reader 0 rest

/-- The pieces of a text. -/
def cut (reader : Reader) (text : Text) : List Piece := cutFrom reader 0 text

/-- Pieces that the walk over their own text yields: every form is read wherever it stands, and
    nothing is read at a plain character. -/
inductive Scan (reader : Reader) : List Piece → Prop where
  | done : Scan reader []
  | pass {c : Char} {rest : List Piece} (refused : reader (c :: textOf rest) = none)
      (later : Scan reader rest) : Scan reader (plain c :: rest)
  | take {written : Text} {reading : Span} {rest : List Piece}
      (reads : reader.Reads written reading) (later : Scan reader rest) :
      Scan reader (form written reading :: rest)

/-- A skip leaves out the characters it counts. -/
theorem cutFrom_eq_cut_drop (reader : Reader) (skip : Nat) (text : Text) :
    cutFrom reader skip text = cut reader (text.drop skip) := by
  induction text generalizing skip with
  | nil => cases skip <;> rfl
  | cons c rest inductionHypothesis =>
    cases skip with
    | zero => rfl
    | succ skip => simpa [cutFrom] using inductionHypothesis skip

/-- Where nothing is read, the walk keeps a plain character and goes on behind it. -/
theorem cut_of_refused {reader : Reader} {c : Char} {rest : Text}
    (refused : reader (c :: rest) = none) :
    cut reader (c :: rest) = plain c :: cut reader rest := by
  simp [cut, cutFrom, refused]

/-- Characters at which nothing is read are plain, and what follows is cut as on its own. -/
theorem cut_plains_append {reader : Reader} (run text : Text)
    (refused : ∀ c ∈ run, ∀ rest, reader (c :: rest) = none) :
    cut reader (run ++ text) = run.map plain ++ cut reader text := by
  induction run with
  | nil => rfl
  | cons c rest inductionHypothesis =>
    obtain ⟨first, others⟩ := List.forall_mem_cons.mp refused
    rw [List.cons_append, cut_of_refused (first _), inductionHypothesis others]
    rfl

/-- Where a form is read, the walk takes it and goes on behind it. -/
theorem cut_of_reads {reader : Reader} {written : Text} {reading : Span}
    (reads : reader.Reads written reading) (rest : Text) :
    cut reader (written ++ rest) = form written reading :: cut reader rest := by
  obtain ⟨c, more, rfl⟩ := List.exists_cons_of_ne_nil reads.inhabited
  have read : reader (c :: (more ++ rest)) = some reading := reads.anywhere rest
  have length : reading.stop = more.length + 1 := by simpa using reads.stop
  simp only [cut, List.cons_append, cutFrom, read, length, List.take_succ_cons, List.take_left,
    Nat.add_sub_cancel]
  rw [cutFrom_eq_cut_drop, List.drop_left]
  rfl

/-- A written form is one piece. -/
theorem cut_written {reader : Reader} {written : Text} {reading : Span}
    (reads : reader.Reads written reading) : cut reader written = [form written reading] := by
  have pieces := cut_of_reads reads []
  rwa [List.append_nil] at pieces

/-- Pieces that are a scan are the pieces of their text. -/
theorem cut_textOf {reader : Reader} {pieces : List Piece} (scan : Scan reader pieces) :
    cut reader (textOf pieces) = pieces := by
  induction scan with
  | done => rfl
  | pass refused later inductionHypothesis =>
    rw [textOf_plain, cut_of_refused refused, inductionHypothesis]
  | take reads later inductionHypothesis =>
    rw [textOf_form, cut_of_reads reads, inductionHypothesis]

/-- The pieces of a text are a scan of exactly that text.

The induction is on the length of the text, because a form takes several characters at once. -/
theorem scan_cut {reader : Reader} (isLocal : reader.IsLocal) (text : Text) :
    Scan reader (cut reader text) ∧ textOf (cut reader text) = text := by
  induction size : text.length using Nat.strong_induction_on generalizing text with
  | _ bound inductionHypothesis =>
    cases text with
    | nil => exact ⟨.done, rfl⟩
    | cons c rest =>
      cases read : reader (c :: rest) with
      | none =>
        obtain ⟨scan, same⟩ := inductionHypothesis rest.length (by simp [← size]) rest rfl
        rw [cut_of_refused read]
        exact ⟨.pass (by rw [same]; exact read) scan, by rw [textOf_plain, same]⟩
      | some reading =>
        obtain ⟨written, more, whole, reads⟩ := isLocal (c :: rest) reading read
        have shorter : more.length < bound := by
          have inhabited := List.length_pos_iff.mpr reads.inhabited
          rw [← size, whole, List.length_append]
          omega
        obtain ⟨scan, same⟩ := inductionHypothesis more.length shorter more rfl
        rw [whole, cut_of_reads reads]
        exact ⟨.take reads scan, by rw [textOf_form, same]⟩

/-- The first pieces of a scan are a scan. -/
theorem Scan.left {reader : Reader} (isLocal : reader.IsLocal) {first second : List Piece}
    (scan : Scan reader (first ++ second)) : Scan reader first := by
  induction first with
  | nil => exact .done
  | cons piece rest inductionHypothesis =>
    cases scan with
    | pass refused later =>
      simp only [List.append_eq, textOf_append] at refused
      rw [← List.cons_append] at refused
      exact .pass (isLocal.refused_of_append refused) (inductionHypothesis later)
    | take reads later => exact .take reads (inductionHypothesis later)

/-- The last pieces of a scan are a scan. -/
theorem Scan.right {reader : Reader} {first second : List Piece}
    (scan : Scan reader (first ++ second)) : Scan reader second := by
  induction first with
  | nil => exact scan
  | cons piece rest inductionHypothesis =>
    cases scan with
    | pass refused later => exact inductionHypothesis later
    | take reads later => exact inductionHypothesis later

/-- A span of placed pieces is the span of one form among them. -/
theorem exists_of_mem_placed {pieces : List Piece} {pos : Nat} {span : Span}
    (member : span ∈ placed pos pieces) :
    ∃ before written reading after, pieces = before ++ form written reading :: after ∧
      span = reading.moved (pos + (textOf before).length) := by
  induction pieces generalizing pos with
  | nil => simp [placed] at member
  | cons piece rest inductionHypothesis =>
    cases piece with
    | plain c =>
      obtain ⟨before, written, reading, after, rfl, rfl⟩ := inductionHypothesis member
      refine ⟨plain c :: before, written, reading, after, rfl, ?_⟩
      rw [textOf_plain, List.length_cons, Nat.add_right_comm, Nat.add_assoc]
    | form written reading =>
      rcases List.mem_cons.mp member with rfl | later
      · exact ⟨[], written, reading, rest, rfl, rfl⟩
      · obtain ⟨before, other, found, after, rfl, rfl⟩ := inductionHypothesis later
        refine ⟨form written reading :: before, other, found, after, rfl, ?_⟩
        rw [textOf_form, List.length_append, Nat.add_assoc]

/-- Every form among placed pieces has its span. -/
theorem mem_placed (before after : List Piece) (written : Text) (reading : Span) (pos : Nat) :
    reading.moved (pos + (textOf before).length) ∈
      placed pos (before ++ form written reading :: after) := by
  rw [placed_append]
  exact List.mem_append_right _ List.mem_cons_self

end Piece

end HiddenContent
