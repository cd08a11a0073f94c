import HiddenContent.Proofs.Forms

/-!
# The grammar of directives and tokens

The readers take the longest word, the first closing brace, the longest run of spacing and the first
marker. The grammar asks for none of this. A text begins with a directive when it can be written as
a marker, a word, a blob on one line, spacing, anything and a marker, and with a token when it can
be written as a bracket, a word, a hyphen, a mode, a blob and a bracket.

One text can have the parts of a directive in several ways: what follows the first space may count
as spacing or as payload, and a payload may hold markers. The readers accept every text that has
such parts in some way, and no other. However the parts are cut, the form that is read is the same:
the word and the blob are those of the parts, and the form ends at the first marker behind the
spacing.
-/

namespace HiddenContent

namespace Text

/-- A text is cut where the separator stands first. -/
structure IsFirstCut (separator text before after : Text) : Prop where
  whole : text = before ++ (separator ++ after)
  first : ∀ earlier rest, text = earlier ++ (separator ++ rest) →
    before.length ≤ earlier.length

/-- What is found is the first cut. -/
theorem isFirstCut_of_cut {separator text before after : Text}
    (found : cut? separator text = some (before, after)) :
    IsFirstCut separator text before after where
  whole := by simpa using eq_of_cut separator text before after found
  first := by
    induction text generalizing before with
    | nil =>
      simp only [cut?] at found
      split at found
      · simp only [Option.some.injEq, Prod.mk.injEq] at found
        simp [← found.1]
      · simp at found
    | cons c more inductionHypothesis =>
      intro earlier rest stands
      simp only [cut?] at found
      split at found
      · simp only [Option.some.injEq, Prod.mk.injEq] at found
        simp [← found.1]
      · rename_i missing
        obtain ⟨⟨inner, behind⟩, inside, same⟩ := Option.map_eq_some_iff.mp found
        simp only [Prod.mk.injEq] at same
        obtain ⟨rfl, rfl⟩ := same
        cases earlier with
        | nil =>
          rw [List.nil_append] at stands
          rw [stands] at missing
          exact absurd (List.isPrefixOf_iff_prefix.mpr (List.prefix_append _ _)) missing
        | cons d others =>
          rw [List.cons_append, List.cons.injEq] at stands
          have shorter := inductionHypothesis inside others rest stands.2
          simpa using shorter

/-- A run in front of a text does not move its first cut when the separator begins with none of its
    characters. -/
theorem cut?_dropWhile (belongs : Char → Bool) {separator text before after : Text}
    (inhabited : separator ≠ []) (stops : separator.StopsAt belongs)
    (found : cut? separator text = some (before, after)) :
    cut? separator (text.dropWhile belongs) = some (before.dropWhile belongs, after) := by
  induction text generalizing before with
  | nil => simp [cut?, inhabited] at found
  | cons c rest inductionHypothesis =>
    have whole := found
    simp only [cut?] at found
    split at found
    · rename_i starts
      obtain ⟨first, others, rfl⟩ := List.exists_cons_of_ne_nil inhabited
      have same : first = c := by
        have begins := List.isPrefixOf_iff_prefix.mp starts
        exact (List.cons_prefix_cons.mp begins).1
      have refused := (stopsAt_cons belongs first others).mp stops
      simp only [Option.some.injEq, Prod.mk.injEq] at found
      rw [List.dropWhile_cons_of_neg (by simp [← same, refused]), whole, ← found.1]
      rfl
    · obtain ⟨⟨inner, behind⟩, inside, same⟩ := Option.map_eq_some_iff.mp found
      simp only [Prod.mk.injEq] at same
      obtain ⟨rfl, rfl⟩ := same
      cases inRun : belongs c with
      | true => simpa [inRun] using inductionHypothesis inside
      | false => simpa [inRun] using whole

end Text

namespace Span

/-- A text loses its last character when that is a space or a tabulator, and nothing otherwise. -/
inductive DropsSpacing : (text short : Text) → Prop where
  | last {text : Text} {c : Char} (spacing : Text.isSpacing c = true) :
      DropsSpacing (text ++ [c]) text
  | nothing {text : Text} (ends : ∀ c ∈ text.getLast?, Text.isSpacing c = false) :
      DropsSpacing text text

/-- A payload without its last spacing is the one that the grammar describes. -/
theorem dropsSpacing_withoutLastSpacing (text : Text) :
    DropsSpacing text (withoutLastSpacing text) := by
  rcases List.eq_nil_or_concat text with rfl | ⟨inner, c, rfl⟩
  · exact .nothing (by simp)
  · cases spacing : Text.isSpacing c with
    | true =>
      have short : withoutLastSpacing (inner.concat c) = inner := by
        simp [withoutLastSpacing, spacing]
      rw [short, List.concat_eq_append]
      exact .last spacing
    | false =>
      have same : withoutLastSpacing (inner.concat c) = inner.concat c := by
        simp [withoutLastSpacing, spacing]
      rw [same]
      exact .nothing (by simp [spacing])

end Span

/-! ## Directives -/

namespace Directive

/-- A text begins with the parts of a directive. No part has to be as long as it can be. -/
structure Parts (text action blob spacing body rest : Text) : Prop where
  whole : text =
    Span.marker ++ (action ++ (blob ++ (spacing ++ (body ++ (Span.marker ++ rest)))))
  action_word : action.IsWordRun
  blob_closed : Span.IsBlob false blob
  spacing_inhabited : spacing ≠ []
  spacing_all : ∀ c ∈ spacing, Text.isSpacing c = true

/-- A written directive has the parts it is written from. -/
theorem parts_written (directive : Directive) (rest : Text) :
    Parts (directive.written ++ rest) directive.action directive.blob directive.spacing
      directive.payload rest where
  whole := by simp [written, afterAction]
  action_word := directive.action_word
  blob_closed := directive.blob_closed
  spacing_inhabited := directive.spacing_inhabited
  spacing_all := directive.spacing_all

/-- Whatever parts a text begins with, they are read up to the first marker behind the spacing. -/
theorem Parts.read {text action blob spacing body rest : Text}
    (parts : Parts text action blob spacing body rest) (pos : Nat) :
    ∃ before after payload,
      Text.IsFirstCut Span.marker (body ++ (Span.marker ++ rest)) before after ∧
      Span.DropsSpacing (before.dropWhile Text.isSpacing) payload ∧
      Span.inlineHere? text pos = some
        { mode := .inline
          action
          start := pos
          stop := pos +
            (Span.marker ++ (action ++ (blob ++ (spacing ++ (before ++ Span.marker))))).length
          blob
          payload
          isPlaceholder := false } := by
  obtain ⟨⟨before, after⟩, found⟩ := Option.isSome_iff_exists.mp
    ((Text.cut?_isSome_iff Span.marker (body ++ (Span.marker ++ rest))).mpr ⟨body, rest, by simp⟩)
  have first := Text.isFirstCut_of_cut found
  have stops : Span.marker.StopsAt Text.isSpacing :=
    (Text.stopsAt_cons Text.isSpacing ':' [':', ':']).mpr (by decide)
  -- the spacing that is read is the whole run, and the rest of the run belongs to the body
  have behind := Text.cut?_dropWhile Text.isSpacing (by decide) stops found
  obtain ⟨directive, whole, sameAction, sameBlob, _, samePayload⟩ :=
    exists_of_parts action blob
      (spacing ++ (body ++ (Span.marker ++ rest)).takeWhile Text.isSpacing) _ parts.action_word
      parts.blob_closed (by simp [parts.spacing_inhabited])
      (by
        intro c present
        rcases List.mem_append.mp present with early | late
        · exact parts.spacing_all c early
        · exact List.mem_takeWhile_imp late)
      (Text.stopsAt_dropWhile Text.isSpacing _) _ after behind
  rw [List.append_assoc, List.takeWhile_append_dropWhile, ← parts.whole] at whole
  refine ⟨before, after, Span.withoutLastSpacing (before.dropWhile Text.isSpacing), first,
    Span.dropsSpacing_withoutLastSpacing _, ?_⟩
  have size := congrArg List.length (parts.whole.symm.trans whole)
  rw [first.whole] at size
  rw [whole, directive.read_written]
  simp only [span, sameAction, sameBlob, samePayload, Option.some.injEq, Span.mk.injEq, true_and,
    and_true]
  simp only [List.length_append] at size ⊢
  omega

end Directive

/-! ## Tokens -/

namespace Placeholder

/-- A text begins with the parts of a token. -/
structure Parts (text action : Text) (mode : Mode) (blob rest : Text) : Prop where
  whole : text = '[' :: (action ++ '-' :: (mode.word ++ (blob ++ ']' :: rest)))
  action_word : action.IsWordRun
  blob_closed : Span.IsBlob true blob

/-- A written token has the parts it is written from. -/
theorem parts_written (placeholder : Placeholder) (rest : Text) :
    Parts (placeholder.written ++ rest) placeholder.action placeholder.mode placeholder.blob
      rest where
  whole := by simp [written_append]
  action_word := placeholder.action_word
  blob_closed := placeholder.blob_closed

/-- The parts of a token that a text begins with are read. -/
theorem Parts.read {text action : Text} {mode : Mode} {blob rest : Text}
    (parts : Parts text action mode blob rest) (pos : Nat) :
    Span.placeholderHere? text pos = some
      { mode
        action
        start := pos
        stop := pos + ('[' :: (action ++ '-' :: (mode.word ++ (blob ++ [']'])))).length
        blob
        payload := []
        isPlaceholder := true } := by
  let placeholder : Placeholder := ⟨action, mode, blob, parts.action_word, parts.blob_closed⟩
  have begins : text = placeholder.written ++ rest := by
    rw [parts.whole, written_append]
    simp [placeholder]
  rw [begins, placeholder.read_written]
  simp [span, written, Span.placeholderOpening, placeholder]

end Placeholder

/-! ## The readers at a position -/

/-- A directive is read exactly where the text has the parts of one. -/
theorem Span.isSome_inlineAt?_iff (text : Text) (pos : Nat) :
    (inlineAt? text pos).isSome = true ↔
      ∃ action blob spacing body rest,
        Directive.Parts (text.drop pos) action blob spacing body rest := by
  rw [inlineAt?, Option.isSome_iff_exists]
  constructor
  · rintro ⟨found, read⟩
    obtain ⟨directive, rest, begins, _⟩ := Directive.exists_of_read _ pos found read
    rw [begins]
    exact ⟨_, _, _, _, _, directive.parts_written rest⟩
  · rintro ⟨action, blob, spacing, body, rest, parts⟩
    obtain ⟨_, _, _, _, _, read⟩ := parts.read pos
    exact ⟨_, read⟩

/-- A token is read exactly where the text has the parts of one. -/
theorem Span.isSome_placeholderAt?_iff (text : Text) (pos : Nat) :
    (placeholderAt? text pos).isSome = true ↔
      ∃ action mode blob rest, Placeholder.Parts (text.drop pos) action mode blob rest := by
  rw [placeholderAt?, Option.isSome_iff_exists]
  constructor
  · rintro ⟨found, read⟩
    obtain ⟨placeholder, rest, begins, _⟩ := Placeholder.exists_of_read _ pos found read
    rw [begins]
    exact ⟨_, _, _, _, placeholder.parts_written rest⟩
  · rintro ⟨action, mode, blob, rest, parts⟩
    exact ⟨_, parts.read pos⟩

/-- The readers accept exactly their grammar. A directive is read at a position when the text from
    there on begins with the parts of one, and a token likewise. However the parts are cut, the word
    and the blob that are read are theirs; a directive ends behind the first marker that follows the
    spacing, and its payload is what stands between the whole run of spacing and that marker, less
    one space or tabulator at the end; a token is exactly its parts.

    Proof: whatever is read is a written form, and a written form is read wherever it stands. The
    parts of a form are unique but for the end of the spacing, and the reader takes all of it. -/
theorem Span.readers_accept_grammar (text : Text) (pos : Nat) :
    ((inlineAt? text pos).isSome = true ↔
      ∃ action blob spacing body rest,
        Directive.Parts (text.drop pos) action blob spacing body rest) ∧
    (∀ action blob spacing body rest,
      Directive.Parts (text.drop pos) action blob spacing body rest →
        ∃ before after payload,
          Text.IsFirstCut marker (body ++ (marker ++ rest)) before after ∧
          DropsSpacing (before.dropWhile Text.isSpacing) payload ∧
          inlineAt? text pos = some
            { mode := .inline
              action
              start := pos
              stop := pos +
                (marker ++ (action ++ (blob ++ (spacing ++ (before ++ marker))))).length
              blob
              payload
              isPlaceholder := false }) ∧
    ((placeholderAt? text pos).isSome = true ↔
      ∃ action mode blob rest, Placeholder.Parts (text.drop pos) action mode blob rest) ∧
    (∀ action mode blob rest, Placeholder.Parts (text.drop pos) action mode blob rest →
      placeholderAt? text pos = some
        { mode
          action
          start := pos
          stop := pos + ('[' :: (action ++ '-' :: (mode.word ++ (blob ++ [']'])))).length
          blob
          payload := []
          isPlaceholder := true }) := by
  refine ⟨isSome_inlineAt?_iff text pos, ?_, isSome_placeholderAt?_iff text pos, ?_⟩
  · intro action blob spacing body rest parts
    exact parts.read pos
  · intro action mode blob rest parts
    exact parts.read pos

/-- Markers inside a blob and four colons behind the payload: the parts below take the last marker
    of the first text, and the reader the first one behind the spacing. -/
theorem Span.readers_accept_grammar_crowded :
    (∃ span, inlineAt? "a:::hide\x7b:::\x7d \t x ::::b:::]".toList 1 = some span ∧
      span.action = "hide".toList ∧ span.blob = "\x7b:::\x7d".toList) ∧
    placeholderAt? "a[hide-block\x7b:::\n[b]\x7d]]".toList 1 = some
      { mode := .block
        action := "hide".toList
        start := 1
        stop := 22
        blob := "\x7b:::\n[b]\x7d".toList
        payload := []
        isPlaceholder := true } := by
  have word : Text.IsWordRun "hide".toList := ⟨by decide, List.all_eq_true.mp (by decide)⟩
  have directive : Directive.Parts ("a:::hide\x7b:::\x7d \t x ::::b:::]".toList.drop 1)
      "hide".toList "\x7b:::\x7d".toList " ".toList "\t x ::::b".toList "]".toList :=
    ⟨by decide, word, Or.inr ⟨":::".toList, by decide, by decide, by decide⟩, by decide,
      List.all_eq_true.mp (by decide)⟩
  have token : Placeholder.Parts ("a[hide-block\x7b:::\n[b]\x7d]]".toList.drop 1)
      "hide".toList .block "\x7b:::\n[b]\x7d".toList "]".toList :=
    ⟨by decide, word, Or.inr ⟨":::\n[b]".toList, by decide, by decide, by decide⟩⟩
  obtain ⟨_, _, _, _, _, read⟩ :=
    (readers_accept_grammar _ 1).2.1 _ _ _ _ _ directive
  exact ⟨⟨_, read, rfl, rfl⟩, (readers_accept_grammar _ 1).2.2.2 _ _ _ _ token⟩

end HiddenContent
