import HiddenContent.Encoding
import HiddenContent.Proofs.Assignments
import HiddenContent.Proofs.Forms

/-!
# The characters of a token

Reading attributes only cuts and trims, so the characters of a key or a value come from the blob.
Writing leaves out every pair with a forbidden character, so the body of a token holds none but
its two separators. Where the closing brace is forbidden the braces of a token are therefore its
only ones, and the token is a written form that is read back with the same action and mode. A
token made from a blob on one line stands on one line itself.
-/

namespace HiddenContent

namespace Text

/-- Taking blanks off the end adds no character. -/
theorem stripEnd_subset (text : Text) : text.stripEnd ⊆ text := by
  intro c present
  rw [stripEnd] at present
  rw [List.mem_reverse] at present
  exact List.mem_reverse.mp ((List.dropWhile_sublist _).subset present)

/-- Taking blanks off both ends adds no character. -/
theorem strip_subset (text : Text) : text.strip ⊆ text := by
  intro c present
  exact (List.dropWhile_sublist _).subset (stripEnd_subset _ present)

/-- The pieces between separators have their characters from the text. -/
theorem subset_of_mem_piecesFrom (separator : Text) (skip : Nat) (text piece : Text)
    (member : piece ∈ piecesFrom separator skip text) : piece ⊆ text := by
  induction text generalizing skip piece with
  | nil =>
    have empty : piece = [] := by cases skip <;> simpa [piecesFrom] using member
    simp [empty]
  | cons c rest inductionHypothesis =>
    have later (found : piece ⊆ rest) : piece ⊆ c :: rest := by
      intro d present
      exact List.mem_cons_of_mem c (found present)
    cases skip with
    | succ skip => exact later (inductionHypothesis skip piece member)
    | zero =>
      simp only [piecesFrom] at member
      split at member
      · rcases List.mem_cons.mp member with rfl | inside
        · simp
        · exact later (inductionHypothesis _ piece inside)
      · cases same : piecesFrom separator 0 rest with
        | nil => simp [same] at member
        | cons first others =>
          rw [same, List.modifyHead_cons] at member
          rcases List.mem_cons.mp member with rfl | inside
          · have head := inductionHypothesis 0 first (by simp [same])
            intro d present
            rcases List.mem_cons.mp present with rfl | deeper
            · simp
            · exact List.mem_cons_of_mem c (head deeper)
          · exact later (inductionHypothesis 0 piece (by simp [same, inside]))

end Text

namespace Attributes

/-- True when every key and every value has its characters from a text. -/
def DrawnFrom (source : Text) (attributes : Attributes) : Prop :=
  ∀ pair ∈ attributes, pair.1 ⊆ source ∧ pair.2 ⊆ source

/-- Taking braces off adds no character. -/
theorem unbraced_subset (text : Text) : unbraced text ⊆ text := by
  intro c present
  unfold unbraced at present
  simp only at present
  have shorter (opened : Text) (inside : c ∈ (if opened.getLast? = some '}' then opened.dropLast
      else opened)) : c ∈ opened := by
    split at inside
    · exact (List.dropLast_sublist opened).subset inside
    · exact inside
  split at present
  · exact List.mem_cons_of_mem _ (shorter _ present)
  · exact shorter _ present

/-- A pair is cut from its piece. -/
theorem pair?_subset (keyValueSeparator piece : Text) (pair : Text × Text)
    (read : pair? keyValueSeparator piece = some pair) : pair.1 ⊆ piece ∧ pair.2 ⊆ piece := by
  rw [pair?] at read
  split at read
  · simp at read
  · rename_i before after found
    have whole := Text.eq_of_cut _ _ _ _ found
    simp only at read
    split at read
    · simp at read
    · simp only [Option.some.injEq] at read
      subst read
      rw [whole]
      constructor
      · intro c present
        simp [Text.strip_subset before present]
      · intro c present
        simp [Text.strip_subset after present]

/-- Reading takes every character from the blob. -/
theorem drawnFrom_decode (dialect : Dialect) (blob : Text) :
    (decode dialect blob).DrawnFrom blob := by
  intro pair member
  rw [decode, extract] at member
  split at member
  · simp at member
  · rcases Mapping.mem_update [] _ pair member with none | assigned
    · simp at none
    · obtain ⟨piece, inside, read⟩ := List.mem_filterMap.mp assigned
      have fromPiece := pair?_subset _ piece pair read
      have fromBlob : piece ⊆ blob := by
        intro c present
        have unbracedText := Text.subset_of_mem_piecesFrom _ 0 _ piece inside present
        exact Text.strip_subset blob (unbraced_subset _ unbracedText)
      exact ⟨fun c present => fromBlob (fromPiece.1 present),
        fun c present => fromBlob (fromPiece.2 present)⟩

/-- A label that is not empty is a value. -/
theorem label_labelSplit (keys : List Text) (attributes : Attributes) :
    (attributes.labelSplit keys).label = [] ∨
      ∃ key, (key, (attributes.labelSplit keys).label) ∈ attributes := by
  rw [labelSplit]
  simp only
  cases found : keys.findSome? fun key =>
      (attributes.get? key).filter fun value => !value.isEmpty with
  | none => exact Or.inl rfl
  | some label =>
    obtain ⟨key, _, read⟩ := List.exists_of_findSome?_eq_some found
    have value := (Option.filter_eq_some_iff.mp read).1
    obtain ⟨before, after, same, _⟩ := List.lookup_eq_some_iff.mp value
    exact Or.inr ⟨key, by simp [same]⟩

/-- Taking the label out adds nothing. -/
theorem drawnFrom_labelSplit (source : Text) (keys : List Text) (attributes : Attributes)
    (drawn : attributes.DrawnFrom source) :
    (attributes.labelSplit keys).attributes.DrawnFrom source ∧
      (attributes.labelSplit keys).label ⊆ source := by
  constructor
  · intro pair member
    exact drawn pair (List.mem_filter.mp member).1
  · rcases label_labelSplit keys attributes with empty | ⟨key, member⟩
    · rw [empty]
      exact List.nil_subset source
    · exact (drawn _ member).2

/-- Dropping the pairs that cannot be written adds nothing. -/
theorem drawnFrom_sanitize (forbidden source : Text) (attributes : Attributes)
    (drawn : attributes.DrawnFrom source) : (attributes.sanitize forbidden).DrawnFrom source := by
  intro pair member
  exact drawn pair (List.mem_filter.mp member).1

/-- A character of joined texts is one of the separator or of a text. -/
theorem mem_intercalate (separator : Text) (texts : List Text) (c : Char)
    (present : c ∈ separator.intercalate texts) : c ∈ separator ∨ ∃ text ∈ texts, c ∈ text := by
  induction texts with
  | nil => simp at present
  | cons first rest inductionHypothesis =>
    cases rest with
    | nil => exact Or.inr ⟨first, by simp, by simpa using present⟩
    | cons second others =>
      rw [List.intercalate_cons_cons] at present
      simp only [List.append_assoc, List.mem_append] at present
      rcases present with inFirst | inSeparator | later
      · exact Or.inr ⟨first, by simp, inFirst⟩
      · exact Or.inl inSeparator
      · rcases inductionHypothesis later with inSeparator | ⟨text, member, inside⟩
        · exact Or.inl inSeparator
        · exact Or.inr ⟨text, List.mem_cons_of_mem _ member, inside⟩

/-- What is written is a separator, or a character of a pair without forbidden ones. -/
theorem mem_serialize (forbidden : Text) (dialect : Dialect) (attributes : Attributes) (c : Char)
    (present : c ∈ serialize forbidden dialect attributes) :
    c ∈ dialect.separator ∨ c ∈ dialect.keyValueSeparator ∨
      ∃ pair ∈ attributes, isClean forbidden pair = true ∧ c ∈ pair.1 ++ pair.2 := by
  rcases mem_intercalate _ _ c present with inSeparator | ⟨text, member, inside⟩
  · exact Or.inl inSeparator
  · obtain ⟨pair, kept, rfl⟩ := List.mem_map.mp member
    obtain ⟨isPair, clean⟩ := List.mem_filter.mp kept
    simp only [List.append_assoc, List.mem_append] at inside
    rcases inside with inKey | inSeparator | inValue
    · exact Or.inr (Or.inr ⟨pair, isPair, clean, by simp [inKey]⟩)
    · exact Or.inr (Or.inl inSeparator)
    · exact Or.inr (Or.inr ⟨pair, isPair, clean, by simp [inValue]⟩)

end Attributes

namespace Settings

/-- The attributes of a token come from the blob of its directive, but for the key of the label. -/
theorem drawnFrom_canonicalize (settings : Settings) (blob : Text) :
    (settings.canonicalize blob).DrawnFrom ("placeholder".toList ++ blob) := by
  have split := Attributes.drawnFrom_labelSplit blob settings.reservedLabelKeys _
    (Attributes.drawnFrom_decode .authored blob)
  have wider (text : Text) (drawn : text ⊆ blob) : text ⊆ "placeholder".toList ++ blob := by
    intro c present
    exact List.mem_append_right _ (drawn present)
  intro pair member
  unfold canonicalize at member
  simp only at member
  have kept (inside : pair ∈ (settings.labelled .authored blob).attributes.sanitize
      settings.forbiddenCharacters) :
      pair.1 ⊆ "placeholder".toList ++ blob ∧ pair.2 ⊆ "placeholder".toList ++ blob := by
    have drawn := Attributes.drawnFrom_sanitize settings.forbiddenCharacters blob _ split.1 pair
      inside
    exact ⟨wider _ drawn.1, wider _ drawn.2⟩
  split at member
  · rcases Mapping.mem_update _ _ pair member with inside | label
    · exact kept inside
    · have same := List.mem_singleton.mp (List.mem_filter.mp label).1
      subst same
      exact ⟨List.subset_append_left _ _, wider _ split.2⟩
  · exact kept member

/-- Without a blob there are no attributes. -/
theorem canonicalize_nil (settings : Settings) : settings.canonicalize [] = [] := by
  have blank : Attributes.decode .authored [] = [] := rfl
  have label : (Attributes.labelSplit settings.reservedLabelKeys []).label = [] := by
    have absent : (settings.reservedLabelKeys.findSome? fun key =>
        (Mapping.get? (α := Text) [] key).filter fun value => !value.isEmpty) = none := by
      simp [Mapping.get?]
    simp only [Attributes.labelSplit, absent, Option.getD_none]
  simp only [canonicalize, labelled, blank, label]
  simp [Attributes.labelSplit, Attributes.sanitize]

/-- The attributes of a token with their braces, where there are any to write. -/
def tokenBlob (settings : Settings) (attributes : Attributes) : Text :=
  let body := attributes.serialize settings.forbiddenCharacters .canonical
  if body.isEmpty then [] else ['{'] ++ body ++ ['}']

/-- A token is its opening, its attributes in braces and a bracket. -/
theorem token_eq (settings : Settings) (mode : Mode) (attributes : Attributes) :
    settings.token mode attributes =
      Span.placeholderOpening settings.directiveAction mode ++
        (settings.tokenBlob attributes ++ [']']) := by
  simp [token, tokenOf, tokenBlob, Span.placeholderOpening]

/-- The braces of a token close at its end only. -/
theorem isBlob_tokenBlob (settings : Settings) (sealing : '}' ∈ settings.forbiddenCharacters)
    (attributes : Attributes) : Span.IsBlob true (settings.tokenBlob attributes) := by
  unfold tokenBlob
  simp only
  split
  · exact Or.inl rfl
  · refine Or.inr ⟨_, List.append_assoc _ _ _, ?_, by simp⟩
    intro present
    rcases Attributes.mem_serialize _ _ _ _ present with
      inSeparator | inSeparator | ⟨pair, _, clean, inside⟩
    · simp [Dialect.separator] at inSeparator
    · simp [Dialect.keyValueSeparator] at inSeparator
    · have allowed := List.all_eq_true.mp clean '}' inside
      simp [sealing] at allowed

/-- The token of a mode with its attributes, as a written form. -/
def tokenForm (settings : Settings) (sealing : '}' ∈ settings.forbiddenCharacters)
    (word : settings.directiveAction.IsWordRun) (mode : Mode) (attributes : Attributes) :
    Placeholder where
  action := settings.directiveAction
  mode := mode
  blob := settings.tokenBlob attributes
  action_word := word
  blob_closed := settings.isBlob_tokenBlob sealing attributes

/-- The written form of a token is the token. -/
theorem written_tokenForm (settings : Settings) (sealing : '}' ∈ settings.forbiddenCharacters)
    (word : settings.directiveAction.IsWordRun) (mode : Mode) (attributes : Attributes) :
    (settings.tokenForm sealing word mode attributes).written =
      settings.token mode attributes := by
  rw [token_eq]
  rfl

/-- A token has no line feed when its directive has none in its blob. -/
theorem lineFeed_not_mem_token (settings : Settings) (word : settings.directiveAction.IsWordRun)
    (mode : Mode) (blob : Text) (single : '\n' ∉ blob) :
    '\n' ∉ settings.token mode (settings.canonicalize blob) := by
  have inAction := word.not_mem '\n' (by decide)
  have inMode : '\n' ∉ mode.word := by cases mode <;> decide
  have inBody : '\n' ∉ (settings.canonicalize blob).serialize settings.forbiddenCharacters
      .canonical := by
    intro present
    rcases Attributes.mem_serialize _ _ _ _ present with
      inSeparator | inSeparator | ⟨pair, member, _, inside⟩
    · simp [Dialect.separator] at inSeparator
    · simp [Dialect.keyValueSeparator] at inSeparator
    · have drawn := settings.drawnFrom_canonicalize blob pair member
      have fromBlob : '\n' ∈ "placeholder".toList ++ blob := by
        rcases List.mem_append.mp inside with inKey | inValue
        · exact drawn.1 inKey
        · exact drawn.2 inValue
      rcases List.mem_append.mp fromBlob with inKey | inBlob
      · exact absurd inKey (by decide)
      · exact single inBlob
  have inBlob : '\n' ∉ settings.tokenBlob (settings.canonicalize blob) := by
    unfold tokenBlob
    simp only
    split
    · simp
    · simp [inBody]
  rw [token_eq]
  simp [Span.placeholderOpening, inAction, inMode, inBlob]

/-- A token without attributes has no brace at all. -/
theorem brace_not_mem_token (settings : Settings) (word : settings.directiveAction.IsWordRun)
    (mode : Mode) : '}' ∉ settings.token mode [] := by
  have inAction := word.not_mem '}' (by decide)
  have inMode : '}' ∉ mode.word := by cases mode <;> decide
  have noBlob : settings.tokenBlob [] = [] := by
    simp [tokenBlob, Attributes.serialize, Attributes.sanitize]
  rw [token_eq, noBlob]
  simp [Span.placeholderOpening, inAction, inMode]

end Settings

end HiddenContent
