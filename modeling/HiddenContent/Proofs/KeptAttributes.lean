import HiddenContent.Proofs.TokenReading

/-!
# What a token keeps of a directive

The attributes of a directive are read in the dialect of authors. The label is taken out of them,
what cannot be written is dropped, and the label may come back under a key of its own. The token is
read in its own dialect, and a label is taken out again.

What was read once is neat: its keys and values are trimmed and not empty, and no key stands twice.
Writing and reading neat attributes loses those that cannot be written and no others, and changes
no order. So what the token is read as can be said from what the directive is read as.
-/

namespace HiddenContent

/-- Taking blanks off both ends twice takes them off once. -/
theorem Text.strip_strip (text : Text) : text.strip.strip = text.strip := by
  obtain ⟨_, _, _, _, _, trimmed⟩ := exists_strip text
  exact trimmed.strip_eq

namespace Attributes

/-! ## Attributes that were read -/

/-- Attributes that lose nothing when they are written and read, but what is forbidden. -/
structure IsNeat (attributes : Attributes) : Prop where
  once : (Mapping.keys attributes).Nodup
  trimmed : ∀ pair ∈ attributes, pair.1.strip = pair.1 ∧ pair.2.strip = pair.2
  inhabited : ∀ pair ∈ attributes, pair.1 ≠ [] ∧ pair.2 ≠ []

/-- A pair that is read has trimmed sides, and neither is empty. -/
theorem neat_pair? {keyValueSeparator piece : Text} {pair : Text × Text}
    (read : pair? keyValueSeparator piece = some pair) :
    (pair.1.strip = pair.1 ∧ pair.2.strip = pair.2) ∧ pair.1 ≠ [] ∧ pair.2 ≠ [] := by
  rw [pair?] at read
  split at read
  · simp at read
  · simp only at read
    split at read
    · simp at read
    · rename_i inhabited
      rw [Bool.or_eq_true, not_or, List.isEmpty_iff, List.isEmpty_iff] at inhabited
      rw [Option.some.injEq] at read
      subst read
      exact ⟨⟨Text.strip_strip _, Text.strip_strip _⟩, inhabited⟩

/-- The empty mapping is neat. -/
theorem isNeat_nil : IsNeat [] where
  once := List.nodup_nil
  trimmed := by simp
  inhabited := by simp

/-- What a blob is read as is neat. -/
theorem isNeat_decode (dialect : Dialect) (blob : Text) : (decode dialect blob).IsNeat := by
  rw [decode, extract]
  split
  · exact isNeat_nil
  · have neat : ∀ pair ∈ Mapping.ofList
        ((blobPieces dialect.separator blob).filterMap (pair? dialect.keyValueSeparator)),
        (pair.1.strip = pair.1 ∧ pair.2.strip = pair.2) ∧ pair.1 ≠ [] ∧ pair.2 ≠ [] := by
      intro pair member
      rcases Mapping.mem_update [] _ pair member with none | assigned
      · simp at none
      · obtain ⟨piece, _, read⟩ := List.mem_filterMap.mp assigned
        exact neat_pair? read
    exact ⟨Mapping.nodup_keys_ofList _, fun pair member => (neat pair member).1,
      fun pair member => (neat pair member).2⟩

namespace IsNeat

variable {attributes : Attributes}

/-- Some of the pairs are as neat as all. -/
theorem filter (neat : attributes.IsNeat) (keep : Text × Text → Bool) :
    IsNeat (attributes.filter keep) where
  once := neat.once.sublist (List.filter_sublist.map Prod.fst)
  trimmed := fun pair member => neat.trimmed pair (List.mem_filter.mp member).1
  inhabited := fun pair member => neat.inhabited pair (List.mem_filter.mp member).1

/-- Nothing of neat attributes is lost in a reading. -/
theorem settled_trimmed (neat : attributes.IsNeat) :
    Mapping.settled attributes.trimmed = attributes := by
  have stripped : (attributes.map fun pair => (pair.1.strip, pair.2.strip)) = attributes := by
    conv => rhs; rw [← List.map_id attributes]
    apply List.map_congr_left
    intro pair member
    obtain ⟨key, value⟩ := neat.trimmed pair member
    exact Prod.ext key value
  have whole : attributes.trimmed = attributes := by
    change List.filter _ (attributes.map fun pair => (pair.1.strip, pair.2.strip)) = attributes
    rw [stripped, List.filter_eq_self]
    intro pair member
    simpa using neat.inhabited pair member
  rw [whole, ← Mapping.ofList_eq_settled, Mapping.ofList_of_nodup_keys attributes neat.once]

end IsNeat

/-! ## The label -/

/-- The key under which a token keeps a label. -/
def labelKey : Text := "placeholder".toList

/-- A label as the one attribute of its own; no attribute when it is empty. -/
def ofLabel (label : Text) : Attributes :=
  if label.isEmpty then [] else [(labelKey, label)]

/-- What is read from a label alone is the label, under its key. -/
theorem get?_ofLabel (label key : Text) :
    (Mapping.get? (ofLabel label) key).filter (fun value => !value.isEmpty) =
      if key = labelKey ∧ label ≠ [] then some label else none := by
  rw [ofLabel]
  by_cases empty : label = []
  · simp [empty, Mapping.get?]
  · rw [if_neg (by simpa using empty), Mapping.get?_cons]
    by_cases same : key = labelKey
    · simp [same, empty]
    · simp [same, Mapping.get?]

/-- A label behind neat attributes is as neat, unless its key is among them. -/
theorem IsNeat.append_ofLabel {attributes : Attributes} (neat : attributes.IsNeat)
    (absent : labelKey ∉ Mapping.keys attributes) {label : Text} (trimmed : label.strip = label) :
    IsNeat (attributes ++ ofLabel label) := by
  rw [ofLabel]
  split
  · rwa [List.append_nil]
  · rename_i inhabited
    have keyTrimmed : labelKey.strip = labelKey := by decide
    have keyInhabited : labelKey ≠ [] := by decide
    refine ⟨?_, ?_, ?_⟩
    · rw [Mapping.keys, List.map_append, List.map_singleton, ← List.concat_eq_append]
      exact List.Nodup.concat absent neat.once
    · rw [List.forall_mem_append, List.forall_mem_singleton]
      exact ⟨neat.trimmed, keyTrimmed, trimmed⟩
    · rw [List.forall_mem_append, List.forall_mem_singleton]
      exact ⟨neat.inhabited, keyInhabited, by simpa using inhabited⟩

section Labels

variable {reserved : List Text} {attributes : Attributes}

/-- Attributes without a reserved key hold no label. -/
theorem get?_of_unreserved (unreserved : ∀ pair ∈ attributes, pair.1 ∉ reserved)
    (more : Attributes) (key : Text) (member : key ∈ reserved) :
    Mapping.get? (attributes ++ more) key = Mapping.get? more key := by
  induction attributes with
  | nil => rfl
  | cons first rest inductionHypothesis =>
    obtain ⟨present, value⟩ := first
    obtain ⟨here, later⟩ := List.forall_mem_cons.mp unreserved
    have other : key ≠ present := by
      rintro rfl
      exact here member
    rw [List.cons_append, Mapping.get?_cons, if_neg other, inductionHypothesis later]

variable (known : labelKey ∈ reserved) (unreserved : ∀ pair ∈ attributes, pair.1 ∉ reserved)
  (label : Text)

include known unreserved

/-- Behind attributes without a reserved key, a label is found under its key alone. -/
theorem label_append_ofLabel :
    ((attributes ++ ofLabel label).labelSplit reserved).label = label := by
  have read : ∀ key ∈ reserved,
      (Mapping.get? (attributes ++ ofLabel label) key).filter (fun value => !value.isEmpty) =
        if key = labelKey ∧ label ≠ [] then some label else none := by
    intro key member
    rw [get?_of_unreserved unreserved _ key member, get?_ofLabel]
  rw [labelSplit]
  simp only
  cases found : reserved.findSome? fun key =>
      (Mapping.get? (attributes ++ ofLabel label) key).filter fun value => !value.isEmpty with
  | none =>
    have missing := List.findSome?_eq_none_iff.mp found _ known
    rw [read _ known] at missing
    simpa [eq_comm] using missing
  | some value =>
    obtain ⟨key, member, present⟩ := List.exists_of_findSome?_eq_some found
    rw [read key member] at present
    split at present
    · exact (Option.some.inj present).symm
    · simp at present

/-- Without the label, the attributes before it are left. -/
theorem attributes_append_ofLabel :
    ((attributes ++ ofLabel label).labelSplit reserved).attributes = attributes := by
  have kept : (attributes.filter fun pair => !reserved.contains pair.1) = attributes := by
    rw [List.filter_eq_self]
    intro pair member
    simpa using unreserved pair member
  have taken : ((ofLabel label).filter fun pair => !reserved.contains pair.1) = [] := by
    rw [ofLabel]
    split
    · rfl
    · simpa using known
  change List.filter (fun pair => !reserved.contains pair.1) (attributes ++ ofLabel label) = _
  rw [List.filter_append, kept, taken, List.append_nil]

/-- A label behind attributes without a reserved key is taken out again. -/
theorem labelSplit_append_ofLabel :
    (attributes ++ ofLabel label).labelSplit reserved = ⟨label, attributes⟩ := by
  calc (attributes ++ ofLabel label).labelSplit reserved
      = ⟨((attributes ++ ofLabel label).labelSplit reserved).label,
          ((attributes ++ ofLabel label).labelSplit reserved).attributes⟩ := rfl
    _ = ⟨label, attributes⟩ := by
        rw [label_append_ofLabel known unreserved, attributes_append_ofLabel known unreserved]

end Labels

end Attributes

namespace Settings

/-- The label that a token keeps of a label: none unless labels are persisted, and none that cannot
    be written with its key. -/
def storedLabel (settings : Settings) (label : Text) : Text :=
  if settings.persistLabel &&
      Attributes.isClean settings.forbiddenCharacters (Attributes.labelKey, label) then label
  else []

variable (settings : Settings)

/-- No reserved key is left where the label was taken out. -/
theorem unreserved_labelled (dialect : Dialect) (blob : Text) :
    ∀ pair ∈ (settings.labelled dialect blob).attributes,
      pair.1 ∉ settings.reservedLabelKeys := by
  intro pair member
  simpa using (List.mem_filter.mp member).2

/-- The key of the label is free where the label was taken out. -/
theorem labelKey_not_mem_keys (known : Attributes.labelKey ∈ settings.reservedLabelKeys)
    (dialect : Dialect) (blob : Text) :
    Attributes.labelKey ∉ Mapping.keys
      ((settings.labelled dialect blob).attributes.sanitize settings.forbiddenCharacters) := by
  intro present
  obtain ⟨pair, member, key⟩ := List.mem_map.mp present
  apply settings.unreserved_labelled dialect blob pair (List.mem_filter.mp member).1
  exact key ▸ known

/-- A token carries the attributes that can be written, and behind them the label that is kept. -/
theorem canonicalize_eq (known : Attributes.labelKey ∈ settings.reservedLabelKeys) (blob : Text) :
    settings.canonicalize blob =
      (settings.labelled .authored blob).attributes.sanitize settings.forbiddenCharacters ++
        Attributes.ofLabel (settings.storedLabel (settings.labelled .authored blob).label) := by
  have absent := settings.labelKey_not_mem_keys known .authored blob
  rw [canonicalize, storedLabel]
  change (if _ then Mapping.update _ (Attributes.sanitize _ [(Attributes.labelKey, _)]) else _) = _
  generalize (settings.labelled .authored blob).label = label
  by_cases empty : label = []
  · simp [empty, Attributes.ofLabel]
  · cases settings.persistLabel with
    | false => simp [Attributes.ofLabel]
    | true =>
      cases clean :
        Attributes.isClean settings.forbiddenCharacters (Attributes.labelKey, label) with
      | true =>
        have added := Mapping.insert_of_absent _ Attributes.labelKey label absent
        simpa [empty, clean, Attributes.sanitize, Attributes.ofLabel, Mapping.update] using added
      | false => simp [empty, clean, Attributes.sanitize, Attributes.ofLabel, Mapping.update]

/-- A label that was taken out is trimmed, and so is what a token keeps of it. -/
theorem strip_storedLabel (dialect : Dialect) (blob : Text) :
    (settings.storedLabel (settings.labelled dialect blob).label).strip =
      settings.storedLabel (settings.labelled dialect blob).label := by
  rw [storedLabel]
  split
  · rcases Attributes.label_labelSplit settings.reservedLabelKeys
      (Attributes.decode dialect blob) with empty | ⟨key, member⟩
    · rw [labelled, empty]
      rfl
    · exact ((Attributes.isNeat_decode dialect blob).trimmed _ member).2
  · rfl

/-- Everything that a token carries can be written. -/
theorem sanitize_canonicalize (blob : Text) :
    (settings.canonicalize blob).sanitize settings.forbiddenCharacters =
      settings.canonicalize blob := by
  rw [Attributes.sanitize, List.filter_eq_self]
  intro pair member
  unfold canonicalize at member
  simp only at member
  split at member
  · rcases Mapping.mem_update _ _ pair member with inside | label
    · exact (List.mem_filter.mp inside).2
    · exact (List.mem_filter.mp label).2
  · exact (List.mem_filter.mp member).2

/-- The attributes of a token are read as those of its directive that can be written, in the same
    order, beside the label that is kept. -/
theorem labelled_tokenBlob (comma : ',' ∈ settings.forbiddenCharacters)
    (colon : ':' ∈ settings.forbiddenCharacters)
    (known : Attributes.labelKey ∈ settings.reservedLabelKeys) (blob : Text) :
    settings.labelled .canonical (settings.tokenBlob (settings.canonicalize blob)) =
      ⟨settings.storedLabel (settings.labelled .authored blob).label,
        (settings.labelled .authored blob).attributes.sanitize settings.forbiddenCharacters⟩ := by
  have read := Attributes.isNeat_decode .authored blob
  have clean : ((settings.labelled .authored blob).attributes.sanitize
      settings.forbiddenCharacters).IsNeat := (read.filter _).filter _
  have neat := clean.append_ofLabel (settings.labelKey_not_mem_keys known .authored blob)
    (settings.strip_storedLabel .authored blob)
  rw [labelled, settings.decode_tokenBlob comma colon, settings.sanitize_canonicalize,
    settings.canonicalize_eq known, neat.settled_trimmed]
  apply Attributes.labelSplit_append_ofLabel known
  intro pair member
  exact settings.unreserved_labelled .authored blob pair (List.mem_filter.mp member).1

end Settings

end HiddenContent
