import HiddenContent.Proofs.Clauses
import HiddenContent.Proofs.Rewriting

/-!
# Keywords in and around tokens

A search tries a keyword against the text without its tokens. A keyword that occurs inside tokens
only is then found in one way: taking a token out joins the text before it with the text after it,
and the keyword begins on one side and ends on the other. The joining is wanted, since visible text
is searched as it is read. `isMatch_iff_joined` says that there is no other way, so a keyword that
no token interrupts is not found.
-/

namespace HiddenContent

namespace Settings

/-- True for what is not hidden. -/
def keeps (settings : Settings) : Piece → Bool
  | .plain _ => true
  | .form _ reading => !settings.acts reading.action

/-- A piece is shown as it stands when it is kept, and not at all otherwise. -/
theorem shownPiece_eq (settings : Settings) (piece : Piece) :
    settings.shownPiece piece = if settings.keeps piece then piece.text else [] := by
  cases piece with
  | plain c => rfl
  | form written reading =>
    cases acts : settings.acts reading.action <;>
      simp [shownPiece, Piece.rewritten, keeps, acts, Piece.text]

/-- A form of the configured action is not kept. -/
theorem keeps_form_of_acts (settings : Settings) (written : Text) (reading : Span)
    (acts : settings.acts reading.action = true) :
    settings.keeps (.form written reading) = false := by
  simp [keeps, acts]

/-- A keyword is interrupted by a form that is taken out: it begins before the form and ends after
    it. -/
def Interrupted (settings : Settings) (keyword : Text) (pieces : List Piece) : Prop :=
  ∃ before removed after, pieces = before ++ removed :: after ∧
    settings.keeps removed = false ∧
    ∃ left right, left ≠ [] ∧ right ≠ [] ∧ keyword = left ++ right ∧
      left <:+ settings.shownOf before ∧ right <+: settings.shownOf after

/-- A keyword that is interrupted among pieces is interrupted behind one more. -/
theorem Interrupted.cons {settings : Settings} {keyword : Text} {rest : List Piece}
    (interrupted : settings.Interrupted keyword rest) (piece : Piece) :
    settings.Interrupted keyword (piece :: rest) := by
  obtain ⟨before, removed, after, rfl, gone, left, right, inhabited, others, whole, ends,
    begins⟩ := interrupted
  exact ⟨piece :: before, removed, after, rfl, gone, left, right, inhabited, others, whole,
    ends.trans (List.suffix_append _ _), begins⟩

/-- A keyword stands without a break from a kept piece on. -/
def Stands (settings : Settings) (keyword : Text) (pieces : List Piece) : Prop :=
  ∃ before kept after, pieces = before ++ kept :: after ∧ settings.keeps kept = true ∧
    ∃ first last, kept.text = first ++ last ∧ last ≠ [] ∧ keyword <+: last ++ Piece.textOf after

/-- A keyword that stands among pieces stands behind one more. -/
theorem Stands.cons {settings : Settings} {keyword : Text} {rest : List Piece}
    (stands : settings.Stands keyword rest) (piece : Piece) :
    settings.Stands keyword (piece :: rest) := by
  obtain ⟨before, kept, after, rfl, found⟩ := stands
  exact ⟨piece :: before, kept, after, rfl, found⟩

/-- A keyword that begins in a shown text before pieces either goes on through the pieces as they
    stand, or meets a form that is taken out. -/
theorem prefix_or_interrupted (settings : Settings) (keyword start : Text)
    (pieces : List Piece) (begins : keyword <+: start ++ settings.shownOf pieces) :
    keyword <+: start ++ Piece.textOf pieces ∨
      ∃ before removed after right, pieces = before ++ removed :: after ∧
        settings.keeps removed = false ∧ right ≠ [] ∧
        keyword = start ++ settings.shownOf before ++ right ∧
        right <+: settings.shownOf after := by
  induction pieces generalizing start with
  | nil => exact Or.inl begins
  | cons piece rest inductionHypothesis =>
    rw [shownOf_cons, shownPiece_eq] at begins
    cases kept : settings.keeps piece with
    | true =>
      rw [kept, if_pos rfl, ← List.append_assoc] at begins
      have text : Piece.textOf (piece :: rest) = piece.text ++ Piece.textOf rest := rfl
      rcases inductionHypothesis (start ++ piece.text) begins with
        onward | ⟨before, removed, after, right, rfl, gone, inhabited, whole, ends⟩
      · exact Or.inl (by rw [text, ← List.append_assoc]; exact onward)
      · refine Or.inr ⟨piece :: before, removed, after, right, rfl, gone, inhabited, ?_, ends⟩
        rw [shownOf_cons, shownPiece_eq, kept, if_pos rfl, whole]
        simp only [List.append_assoc]
    | false =>
      rw [kept] at begins
      simp only [Bool.false_eq_true, if_false, List.nil_append] at begins
      by_cases short : keyword.length ≤ start.length
      · have inside := (Text.prefix_append_iff keyword start _ short).mp begins
        exact Or.inl (inside.trans (List.prefix_append _ _))
      · have longer : start <+: keyword :=
          List.prefix_of_prefix_length_le (List.prefix_append _ _) begins (by omega)
        obtain ⟨right, rfl⟩ := longer
        refine Or.inr ⟨[], piece, rest, right, rfl, kept, ?_, by simp, ?_⟩
        · rintro rfl
          simp at short
        · exact (List.prefix_append_right_inj start).mp begins

/-- A keyword in what is shown stands there without a break, or is interrupted. -/
theorem stands_or_interrupted (settings : Settings) (keyword : Text) (inhabited : keyword ≠ [])
    (pieces : List Piece) (occurs : keyword <:+: settings.shownOf pieces) :
    settings.Stands keyword pieces ∨ settings.Interrupted keyword pieces := by
  induction pieces with
  | nil => exact absurd (List.infix_nil.mp occurs) inhabited
  | cons piece rest inductionHypothesis =>
    have later (inside : keyword <:+: settings.shownOf rest) :
        settings.Stands keyword (piece :: rest) ∨
          settings.Interrupted keyword (piece :: rest) := by
      rcases inductionHypothesis inside with stands | interrupted
      · exact Or.inl (stands.cons piece)
      · exact Or.inr (interrupted.cons piece)
    rw [shownOf_cons, shownPiece_eq] at occurs
    cases kept : settings.keeps piece with
    | false =>
      rw [kept] at occurs
      exact later (by simpa using occurs)
    | true =>
      rw [kept, if_pos rfl] at occurs
      obtain ⟨first, last, whole⟩ := occurs
      rw [List.append_assoc] at whole
      -- the keyword begins in the piece itself or in what follows it
      rcases List.append_eq_append_iff.mp whole with
        ⟨start, text, onward⟩ | ⟨skipped, _, onward⟩
      · by_cases empty : start = []
        · subst empty
          exact later ⟨[], last, by simpa using onward⟩
        · rcases prefix_or_interrupted settings keyword start rest ⟨last, onward⟩ with
            unbroken | ⟨before, removed, after, right, rfl, gone, others, same, ends⟩
          · exact Or.inl ⟨[], piece, rest, rfl, kept, first, start, text, empty, unbroken⟩
          · refine Or.inr ⟨piece :: before, removed, after, rfl, gone,
              start ++ settings.shownOf before, right, by simp [empty], others, same, ?_, ends⟩
            rw [shownOf_cons, shownPiece_eq, kept, if_pos rfl, text, List.append_assoc]
            exact List.suffix_append _ _
      · exact later ⟨skipped, last, by rw [List.append_assoc]; exact onward.symm⟩

end Settings

namespace Search

/-- A token cuts its content into the text before it and the text after it, and both are stripped
    as they stand there. -/
theorem strip_around (settings : Settings) (content : Text) (before after : List Piece)
    (written : Text) (reading token : Span)
    (pieces : Piece.cut Reader.tokens content = before ++ Piece.form written reading :: after)
    (place : token = reading.moved (Piece.textOf before).length) :
    token.start = (Piece.textOf before).length ∧
      token.stop = (Piece.textOf before).length + written.length ∧
      strip settings (content.take token.start) = settings.shownOf before ∧
      strip settings (content.drop token.stop) = settings.shownOf after := by
  obtain ⟨scan, whole⟩ := Piece.scan_cut Reader.isLocal_tokens content
  rw [pieces] at scan whole
  rw [Piece.textOf_append, Piece.textOf_form] at whole
  cases scan.right with
  | take reads later =>
    have start : token.start = (Piece.textOf before).length := by
      simp [place, Span.moved, reads.start]
    have stop : token.stop = (Piece.textOf before).length + written.length := by
      simp [place, Span.moved, reads.stop]
    refine ⟨start, stop, ?_, ?_⟩
    · rw [start, ← whole, List.take_left, strip_eq,
        Piece.cut_textOf (scan.left Reader.isLocal_tokens)]
    · rw [stop, ← whole, ← List.append_assoc, ← List.length_append, List.drop_left, strip_eq,
        Piece.cut_textOf later]

/-- The tokens of a content are its forms. -/
theorem mem_placeholders_iff (content : Text) (token : Span) :
    token ∈ Tokens.placeholders content ↔
      ∃ before written reading after,
        Piece.cut Reader.tokens content = before ++ Piece.form written reading :: after ∧
        token = reading.moved (Piece.textOf before).length := by
  rw [Tokens.placeholders_eq_placed]
  constructor
  · intro member
    obtain ⟨before, written, reading, after, pieces, place⟩ := Piece.exists_of_mem_placed member
    exact ⟨before, written, reading, after, pieces, by rw [place, Nat.zero_add]⟩
  · rintro ⟨before, written, reading, after, pieces, rfl⟩
    have member := Piece.mem_placed before after written reading 0
    rwa [pieces, ← Nat.zero_add (Piece.textOf before).length]

/-- Where a kept piece stands, no token of the configured action does. -/
theorem not_covered (settings : Settings) (content : Text) (token : Span)
    (member : token ∈ Tokens.placeholders content) (acts : settings.acts token.action = true)
    (before after : List Piece) (kept : Piece) (keeps : settings.keeps kept = true)
    (pieces : Piece.cut Reader.tokens content = before ++ kept :: after) (pos : Nat)
    (inside : (Piece.textOf before).length ≤ pos ∧
      pos < (Piece.textOf before).length + kept.text.length) :
    ¬(token.start ≤ pos ∧ pos < token.stop) := by
  obtain ⟨first, written, reading, last, split, place⟩ :=
    (mem_placeholders_iff content token).mp member
  obtain ⟨start, stop, _⟩ := strip_around settings content first last written reading token
    split place
  rw [place] at acts
  have gone := settings.keeps_form_of_acts written reading acts
  rw [pieces] at split
  rcases List.append_eq_append_iff.mp split with ⟨between, same, rest⟩ | ⟨between, same, rest⟩
  · cases between with
    | nil =>
      simp only [List.nil_append, List.cons.injEq] at rest
      rw [rest.1] at keeps
      exact absurd (keeps.symm.trans gone) (by simp)
    | cons piece more =>
      simp only [List.cons_append, List.cons.injEq] at rest
      have length : (Piece.textOf first).length = (Piece.textOf before).length +
          kept.text.length + (Piece.textOf more).length := by
        rw [same, ← rest.1, Piece.textOf_append]
        simp [Piece.textOf, Nat.add_assoc]
      omega
  · cases between with
    | nil =>
      simp only [List.nil_append, List.cons.injEq] at rest
      rw [← rest.1] at keeps
      exact absurd (keeps.symm.trans gone) (by simp)
    | cons piece more =>
      simp only [List.cons_append, List.cons.injEq] at rest
      have length : (Piece.textOf before).length = (Piece.textOf first).length +
          written.length + (Piece.textOf more).length := by
        rw [same, ← rest.1, Piece.textOf_append, Piece.textOf_form]
        simp [Nat.add_assoc]
      omega

/-- A keyword stands nowhere without a break when all its places are inside tokens of the configured
    action. -/
theorem not_stands_of_covered (settings : Settings) (content keyword : Text)
    (inhabited : keyword ≠ [])
    (covered : ∀ pos, keyword <+: content.drop pos →
      ∃ token ∈ Tokens.placeholders content, settings.acts token.action = true ∧
        token.start ≤ pos ∧ pos + keyword.length ≤ token.stop) :
    ¬settings.Stands keyword (Piece.cut Reader.tokens content) := by
  rintro ⟨before, kept, after, pieces, keeps, first, last, text, others, begins⟩
  obtain ⟨_, whole⟩ := Piece.scan_cut Reader.isLocal_tokens content
  have parts : content = (Piece.textOf before ++ first) ++ (last ++ Piece.textOf after) := by
    rw [← whole, pieces, Piece.textOf_append]
    simp [Piece.textOf, text]
  have drop : content.drop ((Piece.textOf before).length + first.length) =
      last ++ Piece.textOf after := by
    rw [parts, ← List.length_append, List.drop_left]
  obtain ⟨token, member, acts, start, stop⟩ := covered _ (by rw [drop]; exact begins)
  have length := List.length_pos_iff.mpr inhabited
  have inside := List.length_pos_iff.mpr others
  apply not_covered settings content token member acts before after kept keeps pieces
    ((Piece.textOf before).length + first.length)
  · rw [text, List.length_append]
    omega
  · exact ⟨start, by omega⟩

/-- A token of the configured action that interrupts a keyword joins it. -/
theorem occurs_of_joined (settings : Settings) (content : Text) (token : Span)
    (member : token ∈ Tokens.placeholders content) (acts : settings.acts token.action = true)
    (left right : Text) (ends : left <:+ strip settings (content.take token.start))
    (begins : right <+: strip settings (content.drop token.stop)) :
    left ++ right <:+: strip settings content := by
  obtain ⟨before, written, reading, after, pieces, place⟩ :=
    (mem_placeholders_iff content token).mp member
  obtain ⟨_, _, stripBefore, stripAfter⟩ := strip_around settings content before after written
    reading token pieces place
  rw [place] at acts
  have gone := settings.keeps_form_of_acts written reading acts
  have joined : strip settings content = settings.shownOf before ++ settings.shownOf after := by
    rw [strip_eq, pieces, Settings.shownOf_append, Settings.shownOf_cons,
      Settings.shownPiece_eq, gone]
    simp
  rw [stripBefore] at ends
  rw [stripAfter] at begins
  obtain ⟨first, sameFirst⟩ := ends
  obtain ⟨last, sameLast⟩ := begins
  rw [joined, ← sameFirst, ← sameLast]
  exact ⟨first, last, by simp⟩

/-- A keyword that occurs inside tokens of the configured action only is found exactly when one of
    these tokens interrupts it: what is left before the token ends with its beginning, and what is
    left after the token begins with the rest of it.

    Proof: a keyword that occurs in what is left either goes on through the pieces as they stand,
    which the premise on occurrences excludes, or meets a form that is taken out. Then its two parts
    stand on the two sides of that form. -/
theorem isMatch_iff_joined (settings : Settings) (content keyword : Text)
    (inhabited : keyword ≠ []) (unquoted : '\x22' ∉ keyword)
    (covered : ∀ pos, keyword <+: content.drop pos →
      ∃ token ∈ Tokens.placeholders content, settings.acts token.action = true ∧
        token.start ≤ pos ∧ pos + keyword.length ≤ token.stop) :
    isMatch settings content [clause keyword] = true ↔
      ∃ token ∈ Tokens.placeholders content, settings.acts token.action = true ∧
        ∃ left right, left ≠ [] ∧ right ≠ [] ∧ keyword = left ++ right ∧
          left <:+ strip settings (content.take token.start) ∧
          right <+: strip settings (content.drop token.stop) := by
  rw [isMatch_clause_iff settings content keyword inhabited unquoted]
  constructor
  · intro occurs
    rw [strip_eq] at occurs
    rcases settings.stands_or_interrupted keyword inhabited _ occurs with stands |
      ⟨before, removed, after, pieces, gone, left, right, leftSome, rightSome, same, ends, begins⟩
    · exact absurd stands (not_stands_of_covered settings content keyword inhabited covered)
    · cases removed with
      | plain c => simp [Settings.keeps] at gone
      | form written reading =>
        have member := (mem_placeholders_iff content _).mpr
          ⟨before, written, reading, after, pieces, rfl⟩
        obtain ⟨_, _, stripBefore, stripAfter⟩ := strip_around settings content before after
          written reading _ pieces rfl
        have acts : settings.acts reading.action = true := by simpa [Settings.keeps] using gone
        refine ⟨_, member, acts, left, right, leftSome, rightSome, same, ?_, ?_⟩
        · rw [stripBefore]
          exact ends
        · rw [stripAfter]
          exact begins
  · rintro ⟨token, member, acts, left, right, _, _, rfl, ends, begins⟩
    exact occurs_of_joined settings content token member acts left right ends begins

/-- Where a keyword begins, there is a character. -/
theorem lt_length_of_begins (keyword content : Text) (inhabited : keyword ≠ []) (pos : Nat)
    (begins : keyword <+: content.drop pos) : pos < content.length := by
  by_contra outside
  rw [List.drop_eq_nil_of_le (by omega), List.prefix_nil] at begins
  exact inhabited begins

/-- A keyword in the attributes of one token is not found. -/
theorem isMatch_iff_joined_alone :
    isMatch {} "[hide-inline\x7bab\x7d]b".toList [clause "ab".toList] = false := by
  have tokens : Tokens.placeholders "[hide-inline\x7bab\x7d]b".toList =
      [⟨.inline, "hide".toList, 0, 17, "\x7bab\x7d".toList, [], true⟩] := by
    rw [Tokens.placeholders_eq_placed]
    decide
  have covered : ∀ pos < 18, "ab".toList <+: "[hide-inline\x7bab\x7d]b".toList.drop pos →
      pos + 2 ≤ 17 := by decide
  have found := isMatch_iff_joined {} "[hide-inline\x7bab\x7d]b".toList "ab".toList
    (by decide) (by decide)
    (by
      intro pos begins
      have inside := covered pos (lt_length_of_begins _ _ (by decide) pos begins) begins
      rw [tokens]
      exact ⟨_, List.mem_singleton_self _, by decide, Nat.zero_le pos, inside⟩)
  rw [← Bool.not_eq_true, found]
  rintro ⟨token, member, _, left, right, leftSome, _, _, ends, _⟩
  rw [tokens, List.mem_singleton] at member
  subst member
  have blank : strip {} ("[hide-inline\x7bab\x7d]b".toList.take 0) = [] := by
    rw [strip_eq]
    rfl
  rw [blank, List.suffix_nil] at ends
  exact leftSome ends

/-- The two halves of a keyword around a token are joined, although the keyword itself stands in
    another token only. -/
theorem isMatch_joined_halves :
    "ab".toList <:+: "a[hide-inline]b[hide-inline\x7bab\x7d]".toList ∧
      (∀ pos, "ab".toList <+: "a[hide-inline]b[hide-inline\x7bab\x7d]".toList.drop pos →
        ∃ token ∈ Tokens.placeholders "a[hide-inline]b[hide-inline\x7bab\x7d]".toList,
          Settings.acts {} token.action = true ∧
          token.start ≤ pos ∧ pos + "ab".toList.length ≤ token.stop) ∧
      isMatch {} "a[hide-inline]b[hide-inline\x7bab\x7d]".toList [clause "ab".toList] = true := by
  have tokens : Tokens.placeholders "a[hide-inline]b[hide-inline\x7bab\x7d]".toList =
      [⟨.inline, "hide".toList, 1, 14, [], [], true⟩,
        ⟨.inline, "hide".toList, 15, 32, "\x7bab\x7d".toList, [], true⟩] := by
    rw [Tokens.placeholders_eq_placed]
    decide
  have covered : ∀ pos < 32,
      "ab".toList <+: "a[hide-inline]b[hide-inline\x7bab\x7d]".toList.drop pos →
        15 ≤ pos ∧ pos + 2 ≤ 32 := by decide
  refine ⟨(Text.occursIn_iff _ _).mp (by decide), ?_, ?_⟩
  · intro pos begins
    have inside := covered pos (lt_length_of_begins _ _ (by decide) pos begins) begins
    rw [tokens]
    exact ⟨_, List.mem_cons_of_mem _ (List.mem_singleton_self _), by decide, inside⟩
  · have joined : strip {} "a[hide-inline]b[hide-inline\x7bab\x7d]".toList = "ab".toList := by
      rw [strip_eq]
      decide
    apply (isMatch_clause_iff {} _ "ab".toList (by decide) (by decide)).mpr
    exact joined ▸ List.infix_rfl

end Search

end HiddenContent
