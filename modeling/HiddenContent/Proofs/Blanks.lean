import HiddenContent.Proofs.BlockLines
import HiddenContent.Proofs.CalmText

/-!
# Lines between blanks

Blanks around a line do not count when it is read as an opener or a closer, and they take no part
in any form inside the line. So a line is looked at between its blanks: encoding it encodes what
stands between them, and keeps whether the line opens a block, with which action, or closes one.
-/

namespace HiddenContent

namespace Text

/-- True for a text of blanks only. -/
def IsBlankRun (text : Text) : Prop := ∀ c ∈ text, isBlank c = true

/-- The empty text is a run of blanks. -/
theorem isBlankRun_nil : IsBlankRun [] := List.forall_mem_nil _

/-- A character that is no blank does not stand in a run of blanks. -/
theorem IsBlankRun.not_mem {text : Text} (blank : text.IsBlankRun) (c : Char)
    (other : isBlank c = false) : c ∉ text := by
  intro present
  rw [blank c present] at other
  exact absurd other (by simp)

/-- True for a text that does not end with a blank. -/
def EndsUnblank (text : Text) : Prop := StopsAt isBlank text.reverse

/-- True for a text without blanks at its ends. -/
def IsTrimmed (text : Text) : Prop := text.StopsAt isBlank ∧ text.EndsUnblank

/-- The blanks after a text that ends without one are removed. -/
theorem stripEnd_append (text trail : Text) (blank : IsBlankRun trail)
    (ends : text.EndsUnblank) : stripEnd (text ++ trail) = text := by
  rw [stripEnd]
  rw [List.reverse_append, dropWhile_run isBlank trail.reverse text.reverse
    (fun c present => blank c (List.mem_reverse.mp present)) ends, List.reverse_reverse]

/-- Only blanks are removed at the end. -/
theorem exists_stripEnd (text : Text) :
    ∃ trail, text = text.stripEnd ++ trail ∧ IsBlankRun trail ∧ text.stripEnd.EndsUnblank := by
  refine ⟨(text.reverse.takeWhile isBlank).reverse, ?_, ?_, ?_⟩
  · rw [stripEnd]
    rw [← List.reverse_append, List.takeWhile_append_dropWhile, List.reverse_reverse]
  · intro c present
    exact List.mem_takeWhile_imp (List.mem_reverse.mp present)
  · rw [stripEnd, EndsUnblank]
    rw [List.reverse_reverse]
    exact stopsAt_dropWhile isBlank text.reverse

/-- A trimmed text between blanks is what stripping leaves. -/
theorem strip_between (lead text trail : Text) (leading : IsBlankRun lead)
    (trailing : IsBlankRun trail) (trimmed : IsTrimmed text) :
    strip (lead ++ (text ++ trail)) = text := by
  rw [strip]
  cases text with
  | nil =>
    have all : IsBlankRun (lead ++ trail) := List.forall_mem_append.mpr ⟨leading, trailing⟩
    have dropped : (lead ++ trail).dropWhile isBlank = [] := by
      simpa using dropWhile_run isBlank (lead ++ trail) [] all (stopsAt_nil _)
    rw [List.nil_append, dropped]
    rfl
  | cons c rest =>
    have starts : StopsAt isBlank (c :: rest ++ trail) := by
      rw [List.cons_append, stopsAt_cons]
      exact (stopsAt_cons isBlank c rest).mp trimmed.1
    rw [dropWhile_run isBlank lead _ leading starts]
    exact stripEnd_append (c :: rest) trail trailing trimmed.2

/-- Stripping leaves a text without blanks at its ends as it is. -/
theorem IsTrimmed.strip_eq {text : Text} (trimmed : text.IsTrimmed) : text.strip = text := by
  simpa using strip_between [] text [] isBlankRun_nil isBlankRun_nil trimmed

/-- A text is what stripping leaves, between blanks. -/
theorem exists_strip (text : Text) :
    ∃ lead trail, text = lead ++ (text.strip ++ trail) ∧ IsBlankRun lead ∧ IsBlankRun trail ∧
      IsTrimmed text.strip := by
  obtain ⟨trail, whole, trailing, ends⟩ := exists_stripEnd (List.dropWhile isBlank text)
  have leading : IsBlankRun (text.takeWhile isBlank) := by
    intro c present
    exact List.mem_takeWhile_imp present
  have starts := stopsAt_dropWhile isBlank text
  refine ⟨text.takeWhile isBlank, trail, ?_, leading, trailing, ?_, ends⟩
  · rw [strip]
    rw [← whole, List.takeWhile_append_dropWhile]
  · rw [strip]
    cases same : stripEnd (List.dropWhile isBlank text) with
    | nil => exact stopsAt_nil _
    | cons c rest =>
      rw [whole, same, List.cons_append, stopsAt_cons] at starts
      rwa [stopsAt_cons]

/-- Blanks around a text are stripped with its own. -/
theorem strip_blanks_around (lead text trail : Text) (leading : lead.IsBlankRun)
    (trailing : trail.IsBlankRun) : strip (lead ++ (text ++ trail)) = text.strip := by
  obtain ⟨first, last, whole, starting, ending, trimmed⟩ := exists_strip text
  have outer := strip_between (lead ++ first) text.strip (last ++ trail)
    (List.forall_mem_append.mpr ⟨leading, starting⟩)
    (List.forall_mem_append.mpr ⟨ending, trailing⟩) trimmed
  conv => lhs; rw [whole]
  simpa using outer

/-- Stripping leaves nothing of blanks only. -/
theorem strip_eq_nil_iff (text : Text) : text.strip = [] ↔ text.IsBlankRun := by
  constructor
  · intro blank
    obtain ⟨lead, trail, whole, leading, trailing, _⟩ := exists_strip text
    rw [blank, List.nil_append] at whole
    rw [whole]
    exact List.forall_mem_append.mpr ⟨leading, trailing⟩
  · intro blank
    have stripped := strip_between [] [] text isBlankRun_nil blank
      ⟨stopsAt_nil _, stopsAt_nil _⟩
    simpa using stripped

/-- Blanks at the end make no difference between blanks. -/
theorem strip_stripEnd (text : Text) : text.stripEnd.strip = text.strip := by
  obtain ⟨lead, trail, whole, leading, trailing, trimmed⟩ := exists_strip text
  cases same : text.strip with
  | nil =>
    have all := (strip_eq_nil_iff text).mp same
    have none : text.stripEnd = [] := by
      simpa using stripEnd_append [] text all (stopsAt_nil _)
    rw [none]
    rfl
  | cons c rest =>
    rw [same] at whole trimmed
    have ends : EndsUnblank (lead ++ (c :: rest)) := by
      have last := trimmed.2
      rw [EndsUnblank] at last ⊢
      rw [List.reverse_append]
      cases reversed : (c :: rest).reverse with
      | nil => simp at reversed
      | cons d others =>
        rw [reversed, stopsAt_cons] at last
        rwa [List.cons_append, stopsAt_cons]
    have stripped : text.stripEnd = lead ++ (c :: rest) := by
      rw [whole, ← List.append_assoc]
      exact stripEnd_append _ trail trailing ends
    rw [stripped]
    simpa using strip_between lead (c :: rest) [] leading isBlankRun_nil trimmed

/-- A text that does not end with a blank ends with no run of blanks. -/
theorem eq_nil_of_endsUnblank (text trail : Text) (blank : IsBlankRun trail)
    (ends : EndsUnblank (text ++ trail)) : trail = [] := by
  rcases List.eq_nil_or_concat trail with rfl | ⟨others, last, rfl⟩
  · rfl
  · have final := blank last (by simp)
    rw [EndsUnblank] at ends
    simp only [List.concat_eq_append, List.reverse_append, List.reverse_cons, List.reverse_nil,
      List.nil_append, List.cons_append, stopsAt_cons] at ends
    rw [ends] at final
    exact absurd final (by simp)

/-- Only the last part of a text decides how it ends. -/
theorem endsUnblank_append (text last : Text) (inhabited : last ≠ []) :
    EndsUnblank (text ++ last) ↔ EndsUnblank last := by
  simp only [EndsUnblank]
  rw [List.reverse_append]
  cases reversed : last.reverse with
  | nil => exact absurd (List.reverse_eq_nil_iff.mp reversed) inhabited
  | cons c rest => rw [List.cons_append, stopsAt_cons, stopsAt_cons]

end Text

/-! ## Blanks are plain characters -/

/-- A directive ends with its marker, which is no blank. -/
theorem Directive.endsUnblank (directive : Directive) : directive.written.EndsUnblank := by
  simpa [Text.EndsUnblank, Directive.written, Directive.afterAction, Span.marker,
    Text.stopsAt_cons] using (by decide : Text.isBlank ':' = false)

/-- A token ends with its bracket, which is no blank. -/
theorem Placeholder.endsUnblank (placeholder : Placeholder) :
    placeholder.written.EndsUnblank := by
  simpa [Text.EndsUnblank, Placeholder.written, Text.stopsAt_cons] using
    (by decide : Text.isBlank ']' = false)

namespace Reader

/-- Nothing is read at a blank. -/
theorem all_eq_none_of_blank (c : Char) (rest : Text) (blank : Text.isBlank c = true) :
    all true (c :: rest) = none := by
  cases read : all true (c :: rest) with
  | none => rfl
  | some reading =>
    rcases exists_of_all true _ reading read with
      ⟨directive, more, same, _⟩ | ⟨_, placeholder, more, same, _⟩
    · obtain ⟨tail, begins⟩ := directive.written_eq_cons
      rw [begins, List.cons_append, List.cons.injEq] at same
      rw [same.1] at blank
      exact absurd blank (by decide)
    · obtain ⟨tail, begins⟩ := placeholder.written_eq_cons
      rw [begins, List.cons_append, List.cons.injEq] at same
      rw [same.1] at blank
      exact absurd blank (by decide)

/-- No form ends with a blank. -/
theorem Reads.endsUnblank {written : Text} {reading : Span}
    (reads : (all true).Reads written reading) : written.EndsUnblank := by
  rcases reads.directive_or_token with ⟨directive, rfl, _⟩ | ⟨placeholder, rfl, _⟩
  · exact directive.endsUnblank
  · exact placeholder.endsUnblank

/-- Blanks after a text let nothing be read in front of it. -/
theorem all_append_blanks (text trail : Text) (blank : trail.IsBlankRun)
    (refused : all true text = none) : all true (text ++ trail) = none := by
  cases read : all true (text ++ trail) with
  | none => rfl
  | some reading =>
    obtain ⟨written, rest, whole, reads⟩ := isLocal_all true _ reading read
    rcases List.append_eq_append_iff.mp whole with ⟨further, same, after⟩ | ⟨further, same, _⟩
    · -- the form ends where the text does, because it does not end with a blank
      have blanks : Text.IsBlankRun further := by
        intro c present
        exact blank c (by simp [after, present])
      have ends := reads.endsUnblank
      rw [same] at ends
      have empty := Text.eq_nil_of_endsUnblank text further blanks ends
      have found := reads.anywhere []
      rw [same, empty, List.append_nil, List.append_nil, refused] at found
      exact absurd found (by simp)
    · rw [same, reads.anywhere further] at refused
      exact absurd refused (by simp)

end Reader

namespace Piece

/-- Blanks in front of a text are plain, and the text is cut as on its own. -/
theorem cut_blanks_append (lead text : Text) (blank : lead.IsBlankRun) :
    cut (Reader.all true) (lead ++ text) = lead.map plain ++ cut (Reader.all true) text :=
  cut_plains_append lead text fun c present rest =>
    Reader.all_eq_none_of_blank c rest (blank c present)

/-- Blanks after a text are plain, and the text is cut as on its own. -/
theorem cut_append_blanks (text trail : Text) (blank : trail.IsBlankRun) :
    cut (Reader.all true) (text ++ trail) = cut (Reader.all true) text ++ trail.map plain := by
  obtain ⟨scan, whole⟩ := scan_cut (Reader.isLocal_all true) text
  generalize cut (Reader.all true) text = pieces at scan whole ⊢
  subst whole
  induction scan with
  | done =>
    have plains := cut_blanks_append trail [] blank
    rw [List.append_nil] at plains
    rw [textOf_nil, List.nil_append, plains]
    simp [cut, cutFrom]
  | @pass c rest refused later inductionHypothesis =>
    have still : Reader.all true (c :: (textOf rest ++ trail)) = none :=
      Reader.all_append_blanks _ trail blank refused
    rw [textOf_plain, List.cons_append, cut_of_refused still, inductionHypothesis]
    rfl
  | take reads later inductionHypothesis =>
    rw [textOf_form, List.append_assoc, cut_of_reads reads, inductionHypothesis]
    rfl

end Piece

namespace Settings

/-- What is shown of a line of its own. -/
def shownLine (settings : Settings) (line : Text) : Text :=
  settings.shownOf (Piece.cut (Reader.all true) line)

/-- Plain characters are shown as they are. -/
theorem shownOf_plains (settings : Settings) (text : Text) :
    settings.shownOf (text.map Piece.plain) = text := by
  induction text with
  | nil => rfl
  | cons c rest inductionHypothesis =>
    rw [List.map_cons, shownOf_cons, inductionHypothesis]
    rfl

/-- Plain characters are stored as they are. -/
theorem storedOf_plains (settings : Settings) (text : Text) :
    settings.storedOf (text.map Piece.plain) = text := by
  induction text with
  | nil => rfl
  | cons c rest inductionHypothesis =>
    rw [List.map_cons, storedOf_plain, inductionHypothesis]

/-- Blanks at the end of a line are shown behind what the line shows. -/
theorem shownLine_append_blanks (settings : Settings) (line trail : Text)
    (blank : trail.IsBlankRun) :
    settings.shownLine (line ++ trail) = settings.shownLine line ++ trail := by
  rw [shownLine, Piece.cut_append_blanks line trail blank, shownOf_append, shownOf_plains]
  rfl

/-- Encoding keeps the blanks around a text. -/
theorem encodeInline_between (settings : Settings) (lead text trail : Text)
    (leading : lead.IsBlankRun) (trailing : trail.IsBlankRun) :
    settings.encodeInline (lead ++ (text ++ trail)) =
      lead ++ (settings.encodeInline text ++ trail) := by
  simp only [encodeInline_eq_storedOf, Piece.cut_blanks_append lead _ leading,
    Piece.cut_append_blanks text trail trailing, storedOf_append, storedOf_plains]

/-- Encoding leaves no blank in front of a text without one, because tokens begin with a bracket. -/
theorem stopsAt_storedOf (settings : Settings) {pieces : List Piece}
    (scan : Piece.Scan (Reader.all true) pieces)
    (starts : (Piece.textOf pieces).StopsAt Text.isBlank) :
    (settings.storedOf pieces).StopsAt Text.isBlank := by
  cases scan with
  | done => exact Text.stopsAt_nil _
  | pass refused later => exact starts
  | @take written reading rest reads later =>
    rw [storedOf_form]
    cases hides : settings.hides reading with
    | true =>
      rw [storedPiece_of_hides settings _ _ hides, token_eq]
      simpa [Span.placeholderOpening, Text.stopsAt_cons] using
        (by decide : Text.isBlank '[' = false)
    | false =>
      rw [storedPiece_of_keeps settings _ _ hides]
      obtain ⟨c, more, rfl⟩ := List.exists_cons_of_ne_nil reads.inhabited
      exact starts

/-- Encoding leaves no blank after a text without one, because tokens end with a bracket. -/
theorem endsUnblank_storedOf (settings : Settings) {pieces : List Piece}
    (scan : Piece.Scan (Reader.all true) pieces) (ends : (Piece.textOf pieces).EndsUnblank) :
    (settings.storedOf pieces).EndsUnblank := by
  rcases List.eq_nil_or_concat pieces with rfl | ⟨before, last, rfl⟩
  · exact Text.stopsAt_nil _
  · rw [List.concat_eq_append] at scan ends ⊢
    rw [Piece.textOf_append] at ends
    rw [storedOf_append]
    cases scan.right with
    | @pass c _ refused later =>
      apply (Text.endsUnblank_append _ [c] (by simp)).mpr
      exact (Text.endsUnblank_append _ [c] (by simp)).mp ends
    | @take written reading _ reads later =>
      rw [storedOf_form, storedOf_nil, List.append_nil]
      cases hides : settings.hides reading with
      | true =>
        rw [storedPiece_of_hides settings _ _ hides, token_eq, ← List.append_assoc,
          ← List.append_assoc]
        apply (Text.endsUnblank_append _ [']'] (by simp)).mpr
        exact (Text.stopsAt_cons Text.isBlank ']' []).mpr (by decide)
      | false =>
        rw [storedPiece_of_keeps settings _ _ hides]
        exact (Text.endsUnblank_append _ written reads.inhabited).mpr reads.endsUnblank

/-- Encoding leaves no blanks at the ends of a trimmed text. -/
theorem isTrimmed_encodeInline (settings : Settings) (text : Text) (trimmed : text.IsTrimmed) :
    (settings.encodeInline text).IsTrimmed := by
  obtain ⟨scan, whole⟩ := Piece.scan_cut (Reader.isLocal_all true) text
  have starts := trimmed.1
  have ends := trimmed.2
  rw [← whole] at starts ends
  rw [encodeInline_eq_storedOf]
  constructor
  · exact settings.stopsAt_storedOf scan starts
  · exact settings.endsUnblank_storedOf scan ends

end Settings

end HiddenContent
