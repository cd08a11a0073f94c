import HiddenContent.Proofs.KeptAttributes
import Mathlib.Data.List.Infix

/-!
# Attributes of two texts joined by a separator

A separator between two texts ends the last piece of the first and begins the first piece of the
second, so the joined text has the pieces of both. Each piece is read for itself. One that gives no
pair, because it has no key, no value or nothing between them, takes nothing from its neighbours.

Trimming a text before it is cut only takes blanks from its outer pieces, and these are trimmed
again as sides of a pair. So it is the same to trim two texts and to trim what is joined from them,
and the attributes of the joined text are those of the first updated with those of the second.
-/

namespace HiddenContent

namespace Text

/-- A separator that stands between two texts separates the pieces of both. -/
theorem pieces_append_cons (separator : Char) (first second : Text) :
    pieces [separator] (first ++ separator :: second) =
      pieces [separator] first ++ pieces [separator] second := by
  simp only [pieces_singleton, List.splitOn_eq_splitOnP]
  exact List.splitOnP_append_cons first second (by simp)

/-- A text without the separator is one piece. -/
theorem pieces_of_absent (separator : Char) (text : Text) (absent : separator ∉ text) :
    pieces [separator] text = [text] := by
  rw [pieces_singleton, List.splitOn_eq_singleton absent]

end Text

namespace Attributes

/-! ## The pairs of a text -/

/-- The pairs that the pieces of a text are read as, in order. -/
def pairs (separator joint : Char) (text : Text) : List (Text × Text) :=
  (Text.pieces [separator] text).filterMap (pair? [joint])

/-- A joined text has the pairs of both texts. -/
theorem pairs_append_cons (separator joint : Char) (first second : Text) :
    pairs separator joint (first ++ separator :: second) =
      pairs separator joint first ++ pairs separator joint second := by
  rw [pairs, Text.pieces_append_cons, List.filterMap_append]
  rfl

/-- A piece that is not cut gives no pair. -/
theorem pair?_of_absent (joint : Char) (piece : Text) (absent : joint ∉ piece) :
    pair? [joint] piece = none := by
  have uncut : Text.cut? [joint] piece = none := by
    rw [← Option.not_isSome_iff_eq_none, Text.cut?_isSome_iff, List.singleton_infix_iff]
    exact absent
  rw [pair?, uncut]

/-! ## Blanks around a text -/

section Blanks

variable {separator joint : Char} (separatorUnblank : Text.isBlank separator = false)
  (jointUnblank : Text.isBlank joint = false) {lead trail : Text} (leading : lead.IsBlankRun)
  (trailing : trail.IsBlankRun)

include jointUnblank leading trailing in
/-- Blanks around a piece are trimmed with its key and its value. -/
theorem pair?_between (piece : Text) :
    pair? [joint] (lead ++ (piece ++ trail)) = pair? [joint] piece := by
  have inLead := leading.not_mem joint jointUnblank
  have inTrail := trailing.not_mem joint jointUnblank
  by_cases present : joint ∈ piece
  · -- no blank cuts a piece, so both are cut at the same place
    obtain ⟨key, value, rfl, absent⟩ := List.eq_append_cons_of_mem present
    have within := pair?_written joint key value absent
    have around := pair?_written joint (lead ++ key) (value ++ trail) (by simp [inLead, absent])
    have keyTrimmed := Text.strip_blanks_around lead key [] leading Text.isBlankRun_nil
    have valueTrimmed := Text.strip_blanks_around [] value trail Text.isBlankRun_nil trailing
    rw [List.append_nil] at keyTrimmed
    rw [List.nil_append] at valueTrimmed
    rw [keyTrimmed, valueTrimmed] at around
    simpa using around.trans within.symm
  · rw [pair?_of_absent joint piece present,
      pair?_of_absent joint _ (by simp [inLead, inTrail, present])]

include separatorUnblank jointUnblank leading trailing in
/-- Blanks around a text without the separator make no difference to its pair. -/
theorem pairs_between_of_absent (text : Text) (absent : separator ∉ text) :
    pairs separator joint (lead ++ (text ++ trail)) = pairs separator joint text := by
  have around : separator ∉ lead ++ (text ++ trail) := by
    simp [leading.not_mem separator separatorUnblank, trailing.not_mem separator separatorUnblank,
      absent]
  rw [pairs, pairs, Text.pieces_of_absent _ _ around, Text.pieces_of_absent _ _ absent,
    List.filterMap_cons, List.filterMap_cons, pair?_between jointUnblank leading trailing]

include separatorUnblank jointUnblank leading in
/-- Blanks in front of a text are blanks in front of its first piece. -/
theorem pairs_blanks_append (text : Text) :
    pairs separator joint (lead ++ text) = pairs separator joint text := by
  have alone (piece : Text) (absent : separator ∉ piece) :=
    pairs_between_of_absent separatorUnblank jointUnblank leading Text.isBlankRun_nil piece absent
  by_cases present : separator ∈ text
  · obtain ⟨piece, rest, rfl, absent⟩ := List.eq_append_cons_of_mem present
    have first := alone piece absent
    rw [List.append_nil] at first
    rw [← List.append_assoc, pairs_append_cons, first, pairs_append_cons]
  · simpa using alone text present

include separatorUnblank jointUnblank trailing in
/-- Blanks after a text are blanks after its last piece. -/
theorem pairs_append_blanks (text : Text) :
    pairs separator joint (text ++ trail) = pairs separator joint text := by
  have alone (piece : Text) (absent : separator ∉ piece) :=
    pairs_between_of_absent separatorUnblank jointUnblank Text.isBlankRun_nil trailing piece absent
  by_cases present : separator ∈ text
  · obtain ⟨before, piece, rfl, absent⟩ := Text.exists_last_of_mem present
    have last := alone piece absent
    rw [List.nil_append] at last
    rw [List.append_assoc, List.cons_append, pairs_append_cons, last, pairs_append_cons]
  · simpa using alone text present

include separatorUnblank jointUnblank in
/-- A text has the same pairs when it is trimmed first. -/
theorem pairs_strip (text : Text) :
    pairs separator joint text.strip = pairs separator joint text := by
  obtain ⟨lead, trail, whole, leading, trailing, _⟩ := Text.exists_strip text
  conv => rhs; rw [whole]
  rw [pairs_blanks_append separatorUnblank jointUnblank leading,
    pairs_append_blanks separatorUnblank jointUnblank trailing]

end Blanks

/-! ## Texts without braces -/

/-- True for a text that holds no brace. -/
def IsUnbraced (text : Text) : Prop := '{' ∉ text ∧ '}' ∉ text

/-- Where no brace stands none is taken off. -/
theorem IsUnbraced.unbraced_eq {text : Text} (bare : IsUnbraced text) : unbraced text = text := by
  have last : text.getLast? ≠ some '}' := fun same => bare.2 (List.mem_of_getLast? same)
  unfold unbraced
  simp only
  split
  · exact absurd List.mem_cons_self bare.1
  · exact if_neg last

/-- One after the other, texts without braces are a text without braces. -/
theorem IsUnbraced.append {first second : Text} (bareFirst : IsUnbraced first)
    (bareSecond : IsUnbraced second) : IsUnbraced (first ++ second) :=
  ⟨List.not_mem_append bareFirst.1 bareSecond.1, List.not_mem_append bareFirst.2 bareSecond.2⟩

/-- A text without braces is read as the assignments of its pairs. -/
theorem IsUnbraced.extract_eq {separator joint : Char} {text : Text} (bare : IsUnbraced text)
    (separatorUnblank : Text.isBlank separator = false)
    (jointUnblank : Text.isBlank joint = false) :
    extract [separator] [joint] text = Mapping.ofList (pairs separator joint text) := by
  have stripped : IsUnbraced text.strip :=
    ⟨fun present => bare.1 (Text.strip_subset text present),
      fun present => bare.2 (Text.strip_subset text present)⟩
  rw [extract, blobPieces, stripped.unbraced_eq, ← pairs, pairs_strip separatorUnblank jointUnblank]
  rfl

/-! ## Joined texts -/

/-- A text joined by a separator is read as its first part and then its second. -/
theorem extract_joined {separator joint : Char} {first second : Text}
    (bareFirst : IsUnbraced first) (bareSecond : IsUnbraced second)
    (bareSeparator : IsUnbraced [separator]) (separatorUnblank : Text.isBlank separator = false)
    (jointUnblank : Text.isBlank joint = false) :
    extract [separator] [joint] (first ++ [separator] ++ second) =
      Mapping.update (extract [separator] [joint] first) (extract [separator] [joint] second) := by
  have bare := (bareFirst.append bareSeparator).append bareSecond
  rw [bare.extract_eq separatorUnblank jointUnblank,
    bareFirst.extract_eq separatorUnblank jointUnblank,
    bareSecond.extract_eq separatorUnblank jointUnblank, List.append_assoc, List.singleton_append,
    pairs_append_cons, Mapping.update_ofList]
  exact Mapping.update_append [] _ _

/-- The attributes of two texts without braces, joined by the separator of the dialect, are those of
    the first updated with those of the second: a key of the first keeps its position, the new keys
    follow in their order, and a value of the second replaces one of the first.

    Proof: joined by the separator, the pieces of the two texts follow one another, and so do the
    pairs read from them, which are assigned in that order. -/
theorem decode_joined (dialect : Dialect) (first second : Text) (bareFirst : IsUnbraced first)
    (bareSecond : IsUnbraced second) :
    decode dialect (first ++ dialect.separator ++ second) =
        Mapping.update (decode dialect first) (decode dialect second) ∧
      Mapping.keys (decode dialect (first ++ dialect.separator ++ second)) =
        Mapping.keys (decode dialect first) ++
          (Mapping.keys (decode dialect second)).filter (· ∉ Mapping.keys (decode dialect first)) ∧
      ∀ key,
        Mapping.get? (decode dialect (first ++ dialect.separator ++ second)) key =
          (Mapping.get? (decode dialect second) key).or
            (Mapping.get? (decode dialect first) key) := by
  have joined : decode dialect (first ++ dialect.separator ++ second) =
      Mapping.update (decode dialect first) (decode dialect second) := by
    cases dialect with
    | authored =>
      exact extract_joined bareFirst bareSecond ⟨by decide, by decide⟩ (by decide) (by decide)
    | canonical =>
      exact extract_joined bareFirst bareSecond ⟨by decide, by decide⟩ (by decide) (by decide)
  have once := (isNeat_decode dialect second).once
  rw [joined]
  exact ⟨rfl, Mapping.keys_update _ _ once, Mapping.get?_update _ _ once⟩

/-- Blanks of several kinds, keys that stand twice in the first text and in both, empty pieces, and
    pieces without a key, without a value or without anything that cuts them. -/
theorem decode_joined_repeated :
    IsUnbraced "\u00a0a = 1 ;;=x;b=2;a=3;".toList ∧
      IsUnbraced " c ;b==4;\u2003d= 5=6 ;e=\t".toList ∧
      Mapping.update (decode .authored "\u00a0a = 1 ;;=x;b=2;a=3;".toList)
          (decode .authored " c ;b==4;\u2003d= 5=6 ;e=\t".toList) =
        decode .authored
          ("\u00a0a = 1 ;;=x;b=2;a=3;".toList ++ [';'] ++ " c ;b==4;\u2003d= 5=6 ;e=\t".toList) ∧
      decode .authored
          ("\u00a0a = 1 ;;=x;b=2;a=3;".toList ++ [';'] ++ " c ;b==4;\u2003d= 5=6 ;e=\t".toList) =
        [("a".toList, "3".toList), ("b".toList, "=4".toList), ("d".toList, "5=6".toList)] := by
  have bareFirst : IsUnbraced "\u00a0a = 1 ;;=x;b=2;a=3;".toList := ⟨by decide, by decide⟩
  have bareSecond : IsUnbraced " c ;b==4;\u2003d= 5=6 ;e=\t".toList := ⟨by decide, by decide⟩
  obtain ⟨joined, _, _⟩ := decode_joined .authored _ _ bareFirst bareSecond
  exact ⟨bareFirst, bareSecond, joined.symm, joined.trans (by decide)⟩

/-- A brace is taken off at the end of a text but not before a separator. -/
example :
    decode .authored "a=1\x7d".toList = [("a".toList, "1".toList)] ∧
      decode .authored "a=1\x7d;b=2".toList =
        [("a".toList, "1\x7d".toList), ("b".toList, "2".toList)] := by decide

end Attributes

end HiddenContent
