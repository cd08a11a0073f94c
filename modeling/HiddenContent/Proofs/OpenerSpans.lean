import HiddenContent.Proofs.NestedUnits
import HiddenContent.Proofs.OpenerMarkers
import HiddenContent.Proofs.Walk

/-!
# Directives on opener lines

An opener line is a marker, a word and a blob between blanks. A directive wants a space or a
tabulator behind its blob and a marker after that, so an opener line holds no directive of its own.
But the blanks of a line end are spacing too, and a payload may go on over the line end: a directive
begins at the marker of an opener line if spacing follows the blob and a marker stands anywhere
later in the text. Besides, a directive may begin inside the braces of an opener line.

These two are all. An opener line has one marker before its brace, so a directive that begins
elsewhere on the line begins between the braces. One that begins at this marker has the word and the
blob of the opener, as both are read in one way only, and what is left of the line is blank.
-/

namespace HiddenContent

namespace Text

/-! ## The line of a position -/

/-- The line in which a position stands: before both are equally many line feeds. -/
def lineAt (text : Text) (pos : Nat) : Text := text.lines.getD ((text.take pos).count '\n') []

/-- The part of this line before the position. -/
def lineBefore (text : Text) (pos : Nat) : Text := (lastLine (text.take pos)).2

/-- The part of this line from the position on. -/
def lineAfter (text : Text) (pos : Nat) : Text := (text.drop pos).takeWhile (· != '\n')

/-- A line feed separates the lines before it from the lines after it. -/
theorem lines_append_lineFeed_append (before after : Text) :
    lines (before ++ '\n' :: after) = before.lines ++ after.lines := by
  simp only [lines, List.splitOn_eq_splitOnP]
  exact List.splitOnP_append_cons before after (by simp)

/-- A text is its last line, or ends with its last line behind a line feed. -/
theorem lastLine_cases (text : Text) :
    text = text.lastLine.2 ∨ ∃ before, text = before ++ '\n' :: text.lastLine.2 := by
  by_cases present : '\n' ∈ text
  · obtain ⟨before, last, rfl, single⟩ := exists_last_of_mem present
    rw [lastLine_append_lineFeed before last single]
    exact Or.inr ⟨before, rfl⟩
  · exact Or.inl (by rw [lastLine_eq text present])

/-- Characters without a line feed among them are all before the first line feed. -/
theorem all_ne_lineFeed {line : Text} (single : '\n' ∉ line) : ∀ c ∈ line, (c != '\n') = true := by
  intro c present
  simpa using fun same : c = '\n' => single (same ▸ present)

/-- The first line of a text is what stands before its first line feed. -/
theorem getD_lines_zero (text : Text) : text.lines.getD 0 [] = text.takeWhile (· != '\n') := by
  by_cases present : '\n' ∈ text
  · obtain ⟨line, rest, rfl, single⟩ := List.eq_append_cons_of_mem present
    rw [lines_append_lineFeed line rest single,
      takeWhile_run _ line _ (all_ne_lineFeed single) (by simp [stopsAt_cons])]
    rfl
  · have whole := takeWhile_run (· != '\n') text [] (all_ne_lineFeed present) (stopsAt_nil _)
    rw [List.append_nil] at whole
    rw [lines, List.splitOn_eq_singleton present, whole]
    rfl

/-- The line of a position is the part before it and the part from it on. -/
theorem lineAt_eq (text : Text) (pos : Nat) :
    text.lineAt pos = text.lineBefore pos ++ text.lineAfter pos := by
  obtain ⟨first, rest, whole, taken, left⟩ :
      ∃ first rest, text = first ++ rest ∧ text.take pos = first ∧ text.drop pos = rest :=
    ⟨_, _, (List.take_append_drop pos text).symm, rfl, rfl⟩
  rw [lineAt, lineBefore, lineAfter, taken, left, whole]
  obtain ⟨last, same⟩ : ∃ last, first.lastLine.2 = last := ⟨_, rfl⟩
  have single : '\n' ∉ last := same ▸ (exists_of_lastLine first).1
  have only : (last ++ rest).lines.getD 0 [] = last ++ rest.takeWhile (· != '\n') := by
    rw [getD_lines_zero, List.takeWhile_append_of_pos (all_ne_lineFeed single)]
  have cases := lastLine_cases first
  rw [same] at cases ⊢
  rcases cases with rfl | ⟨before, rfl⟩
  · rw [List.count_eq_zero.mpr single, only]
  · have index : (before ++ '\n' :: last).count '\n' = before.lines.length := by
      rw [length_lines, List.count_append, List.count_cons_self, List.count_eq_zero.mpr single]
    rw [index, List.append_assoc, List.cons_append, lines_append_lineFeed_append,
      List.getD_eq_getElem?_getD, List.getElem?_append_right (Nat.le_refl _), Nat.sub_self,
      ← List.getD_eq_getElem?_getD, only]

/-! ## Blanks and words -/

/-- The codes of the blank characters. -/
def blankCodes : List Nat :=
  [0x09, 0x0a, 0x0b, 0x0c, 0x0d, 0x1c, 0x1d, 0x1e, 0x1f, 0x20, 0x85, 0xa0, 0x1680, 0x2000, 0x2001,
    0x2002, 0x2003, 0x2004, 0x2005, 0x2006, 0x2007, 0x2008, 0x2009, 0x200a, 0x2028, 0x2029, 0x202f,
    0x205f, 0x3000]

/-- A blank character stands in no word. -/
theorem isWord_of_isBlank {c : Char} (blank : isBlank c = true) : isWord c = false := by
  have code : c.toNat ∈ blankCodes := by
    simp only [isBlank, Bool.or_eq_true, Bool.and_eq_true, decide_eq_true_eq, beq_iff_eq] at blank
    simp only [blankCodes, List.mem_cons, List.not_mem_nil, or_false]
    omega
  have other : ∀ code ∈ blankCodes, isWord (Char.ofNat code) = false := by decide +kernel
  rw [← Char.ofNat_toNat c]
  exact other _ code

/-- A character that is not in the first part of a text stands behind it. -/
theorem exists_between {c : Char} {first rest before after : Text} (absent : c ∉ first)
    (same : first ++ rest = before ++ c :: after) :
    ∃ between, before = first ++ between ∧ rest = between ++ c :: after := by
  rcases List.append_eq_append_iff.mp same with ⟨between, later, rfl⟩ | ⟨between, rfl, later⟩
  · exact ⟨between, later, rfl⟩
  · cases between with
    | nil => exact ⟨[], by simp, by simpa using later.symm⟩
    | cons d more =>
      have head : c = d := by simpa using congrArg List.head? later
      exact absurd (by simp [head]) absent

end Text

/-! ## The lines of a directive -/

/-- What is left of a payload has the line feeds of the payload. -/
theorem Span.lineFeed_mem_withoutLastSpacing {payload : Text} (present : '\n' ∈ payload) :
    '\n' ∈ withoutLastSpacing payload := by
  rw [withoutLastSpacing]
  split
  · rename_i spacing
    obtain ⟨others, last, rfl⟩ := (List.eq_nil_or_concat payload).resolve_left
      (List.ne_nil_of_mem present)
    rw [List.concat_eq_append] at present spacing ⊢
    rw [List.dropLast_concat]
    refine (List.mem_append.mp present).resolve_right fun member => ?_
    rw [List.getLast?_concat, ← List.mem_singleton.mp member] at spacing
    exact absurd spacing (by decide)
  · exact present

namespace Directive

/-- What follows the blob of a directive up to the end of the line begins with a blank. -/
theorem isBlank_head (directive : Directive) (after : Text) :
    ∀ c ∈ ((directive.spacing ++ after).takeWhile (· != '\n')).head?, Text.isBlank c = true := by
  obtain ⟨first, others, same⟩ := List.exists_cons_of_ne_nil directive.spacing_inhabited
  have spacing : first = ' ' ∨ first = '\t' := by
    simpa [Text.isSpacing] using directive.spacing_all first (by simp [same])
  rcases spacing with rfl | rfl <;> simpa [same] using (by decide)

/-- Only blanks behind the blob on its line leave the marker at the end of the payload to a later
    line. -/
theorem lineFeed_mem_payload (directive : Directive) (after : Text)
    (blank : Text.IsBlankRun ((directive.spacing ++ (directive.payload ++ (Span.marker ++
      after))).takeWhile (· != '\n'))) : '\n' ∈ directive.payload := by
  by_contra single
  have unbroken : '\n' ∉ directive.spacing ++ (directive.payload ++ Span.marker) := by
    have head := directive.lineFeed_not_mem_head
    simp only [List.mem_append, not_or] at head ⊢
    exact ⟨head.2.2.2, single, head.1⟩
  have colon := blank.not_mem ':' (by decide)
  have parts : directive.spacing ++ (directive.payload ++ (Span.marker ++ after)) =
      (directive.spacing ++ (directive.payload ++ Span.marker)) ++ after := by simp
  rw [parts, List.takeWhile_append_of_pos (Text.all_ne_lineFeed unbroken)] at colon
  exact colon (by simp [Span.marker])

end Directive

/-! ## Opener lines -/

namespace BlockOpener

/-- What an opener line holds between its blanks begins and ends without one. -/
theorem isTrimmed_written {action blob : Text} (word : action.IsWordRun)
    (closed : Span.IsBlob false blob) : Text.IsTrimmed (Span.marker ++ (action ++ blob)) := by
  refine ⟨(Text.stopsAt_cons _ _ _).mpr (by decide), ?_⟩
  rw [← List.append_assoc]
  rcases closed with rfl | ⟨inside, rfl, _⟩
  · rw [List.append_nil, Text.endsUnblank_append _ _ word.1]
    intro c present
    have member : c ∈ action := List.mem_reverse.mp (List.mem_of_mem_head? present)
    cases blank : Text.isBlank c with
    | false => rfl
    | true =>
      have other := Text.isWord_of_isBlank blank
      rw [word.2 c member] at other
      exact absurd other (by simp)
  · rw [← List.cons_append, ← List.append_assoc, Text.endsUnblank_append _ _ (by simp)]
    exact (Text.stopsAt_cons Text.isBlank '}' []).mpr (by decide)

/-- An opener line is blanks, a marker, a word, a blob and blanks. -/
theorem ofLine?_isSome_iff (line : Text) :
    (ofLine? line).isSome = true ↔ ∃ lead action blob trail,
      line = lead ++ (Span.marker ++ (action ++ blob) ++ trail) ∧ lead.IsBlankRun ∧
        trail.IsBlankRun ∧ action.IsWordRun ∧ Span.IsBlob false blob := by
  rw [Option.isSome_iff_exists]
  constructor
  · rintro ⟨opener, read⟩
    obtain ⟨stripped, word, closed⟩ := (ofLine?_eq_some_iff line opener).mp read
    obtain ⟨lead, trail, whole, leading, trailing, _⟩ := Text.exists_strip line
    rw [stripped] at whole
    exact ⟨lead, opener.action, opener.blob, trail, whole, leading, trailing, word, closed⟩
  · rintro ⟨lead, action, blob, trail, rfl, leading, trailing, word, closed⟩
    have trimmed := isTrimmed_written word closed
    have stripped := Text.strip_between lead _ trail leading trailing trimmed
    exact ⟨⟨action, blob⟩, (ofLine?_eq_some_iff _ _).mpr ⟨stripped, word, closed⟩⟩

/-- The part of an opener line up to somewhere between its braces. -/
def OpensBraces (first : Text) : Prop :=
  ∃ lead action inside : Text, first = lead ++ (Span.marker ++ (action ++ '{' :: inside)) ∧
    lead.IsBlankRun ∧ action.IsWordRun ∧ '}' ∉ inside

/-- The part of an opener line from somewhere between its braces on. -/
def ClosesBraces (last : Text) : Prop :=
  ∃ inside trail : Text, last = inside ++ '}' :: trail ∧ trail.IsBlankRun ∧ '}' ∉ inside

/-- A further marker on an opener line stands between its braces. -/
theorem braces_of_marker {action blob trail first last : Text} (word : action.IsWordRun)
    (closed : Span.IsBlob false blob) (trailing : trail.IsBlankRun) (inhabited : first ≠ [])
    (same : Span.marker ++ (action ++ blob) ++ trail = first ++ (Span.marker ++ last)) :
    ∃ inside more, first = Span.marker ++ (action ++ '{' :: inside) ∧
      Span.marker ++ last = more ++ '}' :: trail ∧ '}' ∉ inside ∧ '}' ∉ more := by
  have noColon : ':' ∉ action := word.not_mem ':' (by decide)
  have noColonAfter : ':' ∉ trail := trailing.not_mem ':' (by decide)
  -- the further marker begins behind the first one, as no colon follows that
  obtain ⟨behind, rfl, later⟩ : ∃ behind, first = Span.marker ++ behind ∧
      action ++ (blob ++ trail) = behind ++ (Span.marker ++ last) := by
    obtain ⟨letter, others, rfl⟩ := List.exists_cons_of_ne_nil word.1
    have different : letter ≠ ':' := fun colon => noColon (by simp [colon])
    match first, inhabited with
    | [c], _ => simp [Span.marker, different] at same
    | [c, d], _ => simp [Span.marker, different] at same
    | c :: d :: e :: behind, _ =>
      simp only [Span.marker, List.cons_append, List.nil_append, List.append_assoc,
        List.cons.injEq] at same
      obtain ⟨rfl, rfl, rfl, later⟩ := same
      exact ⟨behind, rfl, later⟩
  -- then behind the word, and behind the brace
  obtain ⟨braced, rfl, afterWord⟩ := Text.exists_between noColon later
  rcases closed with rfl | ⟨inside, rfl, unclosed, _⟩
  · have present : ':' ∈ trail := by
      rw [← List.nil_append trail, afterWord]
      simp
    exact absurd present noColonAfter
  · obtain ⟨before, rfl, afterBrace⟩ :=
      @Text.exists_between ':' ['{'] (inside ++ '}' :: trail) _ _ (by decide)
        (by simpa using afterWord)
    rcases List.append_eq_append_iff.mp afterBrace with
      ⟨between, _, beyond⟩ | ⟨more, rfl, rest⟩
    · have present : ':' ∈ '}' :: trail := by simp [beyond]
      exact absurd present (by simpa using noColonAfter)
    · rw [List.mem_append, not_or] at unclosed
      exact ⟨before, more, by simp, rest, unclosed⟩

/-- A marker, a word, a blob and a rest that begins with a blank are read in one way. -/
theorem rest_unique {action blob rest other otherBlob otherRest : Text}
    (word : action.IsWordRun) (closed : Span.IsBlob false blob)
    (blank : ∀ c ∈ rest.head?, Text.isBlank c = true) (otherWord : other.IsWordRun)
    (otherClosed : Span.IsBlob false otherBlob)
    (otherBlank : ∀ c ∈ otherRest.head?, Text.isBlank c = true)
    (same : Span.marker ++ (action ++ (blob ++ rest)) =
      Span.marker ++ (other ++ (otherBlob ++ otherRest))) : rest = otherRest := by
  have stops : ∀ {part tail : Text}, Span.IsBlob false part →
      (∀ c ∈ tail.head?, Text.isBlank c = true) →
        (part ++ tail).StopsAt Text.isWord ∧ Span.Opens part tail := by
    intro part tail isBlob blankTail
    constructor
    · rcases isBlob with rfl | ⟨inside, rfl, _⟩
      · exact fun c present => Text.isWord_of_isBlank (blankTail c present)
      · exact (Text.stopsAt_cons _ _ _).mpr (by decide)
    · intro _ opened
      exact absurd (blankTail '{' opened) (by decide)
  obtain ⟨wordStops, opens⟩ := stops closed blank
  obtain ⟨otherStops, otherOpens⟩ := stops otherClosed otherBlank
  have first := (Span.inlineHead?_eq_some_iff _ action _).mpr ⟨rfl, word, wordStops⟩
  have second := (Span.inlineHead?_eq_some_iff _ other _).mpr ⟨rfl, otherWord, otherStops⟩
  rw [same, second, Option.some.injEq, Prod.mk.injEq] at first
  have length := Span.blobLength?_append false blob rest closed opens
  rw [← first.2, Span.blobLength?_append false otherBlob otherRest otherClosed otherOpens,
    Option.some.injEq] at length
  exact (List.append_inj first.2 length).2.symm

/-- The line of a directive is an opener line in two cases: only blanks are before the directive on
    its line and behind its blob, or it begins between the braces of the opener. -/
theorem isSome_of_directive_iff {before rest : Text} (directive : Directive)
    (single : '\n' ∉ before) (unbroken : '\n' ∉ rest)
    (blank : ∀ c ∈ rest.head?, Text.isBlank c = true) :
    (ofLine? (before ++ (Span.marker ++ (directive.action ++ (directive.blob ++ rest))))).isSome =
        true ↔
      before.IsBlankRun ∧ rest.IsBlankRun ∨
        OpensBraces before ∧
          ClosesBraces (Span.marker ++ (directive.action ++ (directive.blob ++ rest))) := by
  rw [ofLine?_isSome_iff]
  constructor
  · rintro ⟨lead, action, blob, trail, same, leading, trailing, word, closed⟩
    obtain ⟨between, rfl, later⟩ :=
      @Text.exists_between ':' lead _ _ _ (leading.not_mem ':' (by decide)) same.symm
    by_cases empty : between = []
    · subst empty
      have unique := rest_unique word closed
        (fun c present => trailing c (List.mem_of_mem_head? present)) directive.action_word
        directive.blob_closed blank (by simpa [Span.marker] using later)
      exact Or.inl ⟨by simpa using leading, unique ▸ trailing⟩
    · obtain ⟨inside, more, rfl, shut, open_, closing⟩ :=
        braces_of_marker word closed trailing empty later
      exact Or.inr ⟨⟨lead, action, inside, rfl, leading, word, open_⟩,
        ⟨more, trail, shut, trailing, closing⟩⟩
  · rintro (⟨leading, trailing⟩ | ⟨⟨lead, action, inside, rfl, leading, word, unclosed⟩,
      more, trail, shut, trailing, closing⟩)
    · exact ⟨before, directive.action, directive.blob, rest, by simp, leading, trailing,
        directive.action_word, directive.blob_closed⟩
    · refine ⟨lead, action, '{' :: ((inside ++ more) ++ ['}']), trail, by simp [shut], leading,
        trailing, word, Or.inr ⟨inside ++ more, rfl, List.not_mem_append unclosed closing, ?_⟩⟩
      have whole : '\n' ∉ more ++ '}' :: trail := by
        have head := directive.lineFeed_not_mem_head
        rw [← shut]
        simp only [List.mem_append, not_or] at head ⊢
        exact ⟨head.1, head.2.1, head.2.2.1, unbroken⟩
      intro _ present
      rcases List.mem_append.mp present with inFirst | inSecond
      · exact single (by simp [inFirst])
      · exact whole (by simp [inSecond])

end BlockOpener

/-! ## The spans of a text -/

/-- The position behind the word and the blob of a directive. -/
def Span.headEnd (span : Span) : Nat :=
  span.start + (marker ++ (span.action ++ span.blob)).length

/-- A directive that a text yields is written in the text. -/
theorem Tokens.exists_of_raw {text : Text} {placeholders : Bool} {span : Span}
    (read : span ∈ ofText text placeholders) (raw : span.isPlaceholder = false) :
    ∃ (before after : Text) (directive : Directive),
      text = before ++ (directive.written ++ after) ∧ span = directive.span before.length := by
  rw [ofText_eq_placed] at read
  obtain ⟨first, written, reading, last, pieces, rfl⟩ := Piece.exists_of_mem_placed read
  obtain ⟨scan, whole⟩ := Piece.scan_cut (Reader.isLocal_all placeholders) text
  rw [pieces] at scan whole
  cases scan.right with
  | take reads _ =>
    rcases reads.directive_or_token with ⟨directive, rfl, rfl⟩ | ⟨token, rfl, rfl⟩
    · refine ⟨Piece.textOf first, Piece.textOf last, directive, ?_, ?_⟩
      · rw [← whole]
        simp
      · rw [← directive.span_eq_moved, Nat.zero_add]
    · exact absurd raw (by simp [Span.moved, Placeholder.span])

/-- A text yields a directive on an opener line in exactly two cases. Either nothing but blanks is
    before the directive on its line and behind its blob; then the payload goes on over the end of
    the line. Or the directive begins between the braces of the opener.

    Proof: the line of a directive is what stands before it, its head, and what follows as far as
    the line goes. An opener line is a marker, a word and a blob between blanks, and these are
    compared with the parts of the directive. -/
theorem Tokens.isSome_ofLine_iff {text : Text} {placeholders : Bool} {span : Span}
    (read : span ∈ ofText text placeholders) (raw : span.isPlaceholder = false) :
    ((BlockOpener.ofLine? (text.lineAt span.start)).isSome = true ↔
      (text.lineBefore span.start).IsBlankRun ∧ (text.lineAfter span.headEnd).IsBlankRun ∨
        BlockOpener.OpensBraces (text.lineBefore span.start) ∧
          BlockOpener.ClosesBraces (text.lineAfter span.start)) ∧
      ((text.lineAfter span.headEnd).IsBlankRun → '\n' ∈ span.payload) := by
  obtain ⟨before, after, directive, rfl, rfl⟩ := exists_of_raw read raw
  have single : '\n' ∉ (Text.lastLine before).2 := (Text.exists_of_lastLine before).1
  have unbroken : '\n' ∉ Span.marker ++ (directive.action ++ directive.blob) := by
    have head := directive.lineFeed_not_mem_head
    simp only [List.mem_append, not_or] at head ⊢
    exact ⟨head.1, head.2.1, head.2.2.1⟩
  have parts : directive.written ++ after =
      Span.marker ++ (directive.action ++ directive.blob) ++
        (directive.spacing ++ (directive.payload ++ (Span.marker ++ after))) := by
    simp [Directive.written, Directive.afterAction]
  have first : Text.lineBefore (before ++ (directive.written ++ after))
      (directive.span before.length).start = (Text.lastLine before).2 := by
    simp [Text.lineBefore, Directive.span]
  have last : Text.lineAfter (before ++ (directive.written ++ after))
      (directive.span before.length).headEnd =
        (directive.spacing ++ (directive.payload ++ (Span.marker ++ after))).takeWhile
          (· != '\n') := by
    rw [Text.lineAfter, parts, ← List.append_assoc before, Span.headEnd]
    exact congrArg _ (List.drop_left' (by simp [Directive.span]))
  have whole : Text.lineAfter (before ++ (directive.written ++ after))
      (directive.span before.length).start =
        Span.marker ++ (directive.action ++ (directive.blob ++
          (directive.spacing ++ (directive.payload ++ (Span.marker ++ after))).takeWhile
            (· != '\n'))) := by
    rw [Text.lineAfter, Directive.span, List.drop_left, parts,
      List.takeWhile_append_of_pos (Text.all_ne_lineFeed unbroken)]
    simp only [List.append_assoc]
  rw [Text.lineAt_eq, first, last, whole]
  refine ⟨BlockOpener.isSome_of_directive_iff directive single ?_ (directive.isBlank_head _),
    fun blank => Span.lineFeed_mem_withoutLastSpacing (directive.lineFeed_mem_payload after blank)⟩
  intro present
  have other := List.mem_takeWhile_imp present
  simp at other

/-- A directive inside the braces of an opener line, which is not one of its own. -/
theorem Tokens.isSome_ofLine_braces :
    ∃ span ∈ ofText "a\n:::note\x7b:::b c:::\x7d\n".toList true, span.isPlaceholder = false ∧
      span.start = 10 ∧
        (BlockOpener.ofLine?
          (Text.lineAt "a\n:::note\x7b:::b c:::\x7d\n".toList span.start)).isSome = true := by
  let span : Span :=
    { mode := .inline, action := ['b'], start := 10, stop := 19, blob := [], payload := ['c'],
      isPlaceholder := false }
  have read : span ∈ ofText "a\n:::note\x7b:::b c:::\x7d\n".toList true := by
    rw [ofText_eq_placed]
    decide
  refine ⟨span, read, rfl, rfl, (isSome_ofLine_iff read rfl).1.mpr (Or.inr ⟨?_, ?_⟩)⟩
  · exact ⟨[], "note".toList, [], by decide, by simp [Text.IsBlankRun],
      ⟨by decide, List.all_eq_true.mp (by decide)⟩, by simp⟩
  · exact ⟨":::b c:::".toList, [], by decide, by simp [Text.IsBlankRun], by decide⟩

/-- A space at the end of an opener line is enough for a directive whose payload is the text up to
    the next marker, on the line below. -/
theorem Tokens.isSome_ofLine_swallowed :
    ¬∀ span ∈ ofText ":::hide \nx:::".toList true, span.isPlaceholder = false →
      BlockOpener.ofLine? (Text.lineAt ":::hide \nx:::".toList span.start) = none := by
  rw [ofText_eq_placed]
  decide

end HiddenContent
