import HiddenContent.Proofs.Assignments
import HiddenContent.Proofs.Blanks
import HiddenContent.Proofs.TokenText

/-!
# A token is read back as what it was made from

A token is written from an action, a mode and attributes, and read in a text by other rules: a
bracket, a word, a mode, the first closing brace, a bracket. Where the separators and the closing
brace are forbidden in keys and values, no written pair can end a piece or the blob, so the token
is read wherever it stands and its blob is cut at exactly the places where it was joined. What is
lost is what trimming takes: blanks at the ends of keys and values, pairs with a blank side, and
all but the last value of a key that is written twice.
-/

namespace HiddenContent

namespace Text

/-- A text is cut at the first place of a character. -/
theorem cut?_singleton (c : Char) (before after : Text) (absent : c ∉ before) :
    cut? [c] (before ++ c :: after) = some (before, after) := by
  induction before with
  | nil => simp [cut?]
  | cons d rest inductionHypothesis =>
    obtain ⟨different, later⟩ : c ≠ d ∧ c ∉ rest := by simpa using absent
    simp [cut?, different, inductionHypothesis later]

end Text

namespace Attributes

/-- The pairs with both sides trimmed, without those that have a blank side. -/
def trimmed (attributes : Attributes) : List (Text × Text) :=
  (attributes.map fun (key, value) => (key.strip, value.strip)).filter fun (key, value) =>
    !key.isEmpty && !value.isEmpty

/-- A written pair is cut where it was joined. -/
theorem pair?_written (joint : Char) (key value : Text) (absent : joint ∉ key) :
    pair? [joint] (key ++ [joint] ++ value) =
      if key.strip.isEmpty || value.strip.isEmpty then none
      else some (key.strip, value.strip) := by
  have cut := Text.cut?_singleton joint key value absent
  rw [pair?, List.append_assoc, List.singleton_append, cut]

/-- Reading written pairs trims them. -/
theorem filterMap_written (joint : Char) (attributes : Attributes)
    (absent : ∀ pair ∈ attributes, joint ∉ pair.1) :
    (attributes.map fun (key, value) => key ++ [joint] ++ value).filterMap (pair? [joint]) =
      attributes.trimmed := by
  induction attributes with
  | nil => rfl
  | cons first rest inductionHypothesis =>
    obtain ⟨key, value⟩ := first
    have here := pair?_written joint key value (absent (key, value) List.mem_cons_self)
    have later := inductionHypothesis fun pair member => absent pair (List.mem_cons_of_mem _ member)
    rw [List.map_cons, List.filterMap_cons, here, later]
    by_cases blankKey : key.strip.isEmpty = true
    · simp [trimmed, blankKey]
    · by_cases blankValue : value.strip.isEmpty = true
      · simp [trimmed, blankValue]
      · simp [trimmed, blankKey, blankValue]

/-- Reading takes off the braces around a body and nothing else. -/
theorem blobPieces_braced (separator body : Text) :
    blobPieces separator ('{' :: (body ++ ['}'])) = Text.pieces separator body := by
  have trimmed : Text.IsTrimmed ('{' :: (body ++ ['}'])) := by
    refine ⟨(Text.stopsAt_cons _ _ _).mpr (by decide), ?_⟩
    exact (Text.endsUnblank_append ('{' :: body) ['}'] (by simp)).mpr
      ((Text.stopsAt_cons Text.isBlank '}' []).mpr (by decide))
  rw [blobPieces, trimmed.strip_eq]
  simp [unbraced]

/-- Pairs that hold no separator are read as they were written. -/
theorem extract_written (separator joint : Char) (attributes : Attributes)
    (inhabited : attributes ≠ []) (different : separator ≠ joint)
    (absent : ∀ pair ∈ attributes, joint ∉ pair.1 ∧ separator ∉ pair.1 ∧ separator ∉ pair.2) :
    extract [separator] [joint]
        ('{' :: ([separator].intercalate
          (attributes.map fun (key, value) => key ++ [joint] ++ value) ++ ['}'])) =
      Mapping.ofList attributes.trimmed := by
  have whole : ∀ piece ∈ attributes.map (fun (key, value) => key ++ [joint] ++ value),
      separator ∉ piece := by
    intro piece member
    obtain ⟨pair, inside, rfl⟩ := List.mem_map.mp member
    obtain ⟨_, inKey, inValue⟩ := absent pair inside
    simp [inKey, inValue, different]
  have pieces : Text.pieces [separator] ([separator].intercalate
        (attributes.map fun (key, value) => key ++ [joint] ++ value)) =
      attributes.map fun (key, value) => key ++ [joint] ++ value := by
    rw [Text.pieces_singleton]
    exact List.splitOn_intercalate separator whole (by simpa using inhabited)
  rw [extract, blobPieces_braced, pieces,
    filterMap_written joint attributes fun pair member => (absent pair member).1]
  simp

/-- A body is empty exactly when there is no pair to write. -/
theorem serialize_eq_nil_iff (forbidden : Text) (dialect : Dialect) (attributes : Attributes) :
    attributes.serialize forbidden dialect = [] ↔ attributes.sanitize forbidden = [] := by
  rw [serialize]
  cases attributes.sanitize forbidden with
  | nil => simp
  | cons first rest =>
    have inhabited : dialect.keyValueSeparator ≠ [] := by cases dialect <;> decide
    cases rest with
    | nil => simp [inhabited]
    | cons second others => simp [List.intercalate_cons_cons, inhabited]

/-- A kept pair holds no forbidden character. -/
theorem not_mem_of_mem_sanitize {forbidden : Text} {attributes : Attributes}
    {pair : Text × Text} (member : pair ∈ attributes.sanitize forbidden) {c : Char}
    (isForbidden : c ∈ forbidden) : c ∉ pair.1 ∧ c ∉ pair.2 := by
  have clean := (List.mem_filter.mp member).2
  rw [isClean, List.all_eq_true] at clean
  constructor
  · intro present
    simpa [isForbidden] using clean c (List.mem_append_left _ present)
  · intro present
    simpa [isForbidden] using clean c (List.mem_append_right _ present)

end Attributes

namespace Settings

/-- The blob of a token is read as the pairs that were written into it. -/
theorem decode_tokenBlob (settings : Settings) (comma : ',' ∈ settings.forbiddenCharacters)
    (colon : ':' ∈ settings.forbiddenCharacters) (attributes : Attributes) :
    Attributes.decode .canonical (settings.tokenBlob attributes) =
      Mapping.settled (attributes.sanitize settings.forbiddenCharacters).trimmed := by
  have body := Attributes.serialize_eq_nil_iff settings.forbiddenCharacters .canonical attributes
  by_cases nothing : attributes.sanitize settings.forbiddenCharacters = []
  · rw [tokenBlob, body.mpr nothing, nothing]
    rfl
  · -- something is written, so there are braces, and no pair holds what cuts it or its neighbours
    have written := Attributes.extract_written ',' ':' _ nothing (by decide)
      fun pair member => ⟨(Attributes.not_mem_of_mem_sanitize member colon).1,
        Attributes.not_mem_of_mem_sanitize member comma⟩
    have inhabited : ¬(attributes.serialize settings.forbiddenCharacters .canonical).isEmpty := by
      rw [List.isEmpty_iff, body]
      exact nothing
    have blob : settings.tokenBlob attributes =
        '{' :: (attributes.serialize settings.forbiddenCharacters .canonical ++ ['}']) := by
      unfold tokenBlob
      simp only [inhabited, Bool.false_eq_true, if_false, List.cons_append, List.nil_append]
    rw [← Mapping.ofList_eq_settled, ← written, blob]
    rfl

/-- A token is read in every text exactly where it was written, with its mode and its action, and
    its attributes are the written ones after trimming: pairs with a blank side are gone, and each
    key stands at its first place with its last value.

    Proof: a token is a written form, and a written form is read wherever it stands. The pairs in
    its blob are then read back one by one. -/
theorem read_token (settings : Settings) (word : settings.directiveAction.IsWordRun)
    (comma : ',' ∈ settings.forbiddenCharacters) (colon : ':' ∈ settings.forbiddenCharacters)
    (sealing : '}' ∈ settings.forbiddenCharacters) (mode : Mode) (attributes : Attributes)
    (before after : Text) :
    ∃ blob,
      Span.placeholderAt? (before ++ settings.token mode attributes ++ after) before.length =
        some
          { mode
            action := settings.directiveAction
            start := before.length
            stop := before.length + (settings.token mode attributes).length
            blob
            payload := []
            isPlaceholder := true } ∧
      Attributes.decode .canonical blob =
        Mapping.settled (attributes.sanitize settings.forbiddenCharacters).trimmed := by
  refine ⟨settings.tokenBlob attributes, ?_, settings.decode_tokenBlob comma colon attributes⟩
  have written := settings.written_tokenForm sealing word mode attributes
  rw [Span.placeholderAt?, List.append_assoc, List.drop_left, ← written, Placeholder.read_written]
  rfl

/-- A token between texts that look like tokens themselves: the padded pair is trimmed, the pair
    without a value is gone, and the key that stands twice after trimming has its last value. -/
theorem read_token_between :
    ∃ blob,
      Span.placeholderAt?
          ("[hide-inline\x7b".toList ++
            Settings.token {} .inline
              [(" a ".toList, "1 ".toList), ("b".toList, " ".toList), ("c".toList, "2".toList),
                ("a".toList, "3\n".toList), ("d".toList, "x]".toList)] ++
            "\x7d]".toList) 13 =
        some
          { mode := .inline
            action := "hide".toList
            start := 13
            stop := 47
            blob
            payload := []
            isPlaceholder := true } ∧
      Attributes.decode .canonical blob =
        [("a".toList, "3".toList), ("c".toList, "2".toList)] := by
  obtain ⟨blob, read, decoded⟩ := read_token {}
    ⟨by decide, List.all_eq_true.mp (by decide)⟩ (by decide) (by decide) (by decide) .inline
    [(" a ".toList, "1 ".toList), ("b".toList, " ".toList), ("c".toList, "2".toList),
      ("a".toList, "3\n".toList), ("d".toList, "x]".toList)]
    "[hide-inline\x7b".toList "\x7d]".toList
  have start : "[hide-inline\x7b".toList.length = 13 := by decide
  have length : (Settings.token {} .inline
      [(" a ".toList, "1 ".toList), ("b".toList, " ".toList), ("c".toList, "2".toList),
        ("a".toList, "3\n".toList), ("d".toList, "x]".toList)]).length = 34 := by decide
  rw [start, length] at read
  exact ⟨blob, read, decoded.trans (by decide)⟩

end Settings

end HiddenContent
