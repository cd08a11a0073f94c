import HiddenContent.Activity
import HiddenContent.Proofs.Assignments

/-!
# Which notes keep what is made of them

What is made of a note on its own has one name for each ending of the activity, and all of these
begin with one path. For encoding this is the name of the note, so no two notes meet. For resolving
and highlighting it is the name without its suffix, which `a.md` and `a.txt` share.

The notes are gone through in order and each assigns its entries, so a run leaves an entry if all
notes that assign its name assign its value too. Two notes that share one name share all of theirs,
as all endings of an activity have one length. So everything is left exactly if notes of one path
are made into the same. All of this holds for any formatter of highlighted pages.
-/

namespace HiddenContent

namespace Wishes

/-! ## The entries of one note -/

/-- The path that the names of the entries of a note begin with. -/
def basis (activity : Activity) (name : Text) : Except Path Text :=
  match activity with
  | .encode | .search => .ok name
  | .resolve | .highlight => stem name

/-- What the names of the entries of a note end with. -/
def endings : Activity → List Text
  | .encode => [[]]
  | .resolve => [".json".toList, ".html".toList]
  | .highlight => [".html".toList]
  | .search => []

/-- The entries of a note end differently. -/
theorem nodup_endings (activity : Activity) : (endings activity).Nodup := by
  cases activity <;> decide

/-- All endings of one activity are equally long. -/
theorem length_endings (activity : Activity) :
    ∀ first ∈ endings activity, ∀ second ∈ endings activity, first.length = second.length := by
  cases activity <;> decide

/-- A name with a last part has a stem. -/
theorem stem_of_named {name : Text} (named : (Path.ofText name).parts ≠ []) :
    ∃ base, stem name = .ok base := by
  have last := List.getLast?_eq_getLast_of_ne_nil named
  exact ⟨_, by rw [stem, Path.withoutSuffix?, last]; rfl⟩

/-- A name without parts has none, and its path is the error. -/
theorem stem_of_unnamed {name : Text} (unnamed : (Path.ofText name).parts = []) :
    stem name = .error (Path.ofText name) := by
  simp [stem, Path.withoutSuffix?, unnamed]

/-- The entries of a note that are named after a path. -/
def entriesAt (wishes : Wishes) (format : Highlight.Formatter) (activity : Activity)
    (name text base : Text) : Mapping Text :=
  match activity with
  | .encode => wishes.encoded base text
  | .resolve => wishes.resolved base text
  | .highlight => highlighted format base name text
  | .search => []

variable {wishes : Wishes} {format : Highlight.Formatter} {activity : Activity}

/-- What is made of a note is named after its path, if that can be named. -/
theorem noteOutputs_eq (wishes : Wishes) (format : Highlight.Formatter) (activity : Activity)
    (name text : Text) :
    wishes.noteOutputs format activity name text =
      (basis activity name).map (wishes.entriesAt format activity name text) := by
  cases activity <;> rfl

/-- The entries that are named after a path have that path before each ending as their names. -/
theorem keys_entriesAt (name text base : Text) :
    (wishes.entriesAt format activity name text base).keys =
      (endings activity).map (base ++ ·) := by
  cases activity with
  | encode => simp [entriesAt, encoded, endings]
  | resolve =>
    rw [entriesAt, resolved, Mapping.keys_ofList]
    simp [endings, List.eraseDups_cons]
  | highlight => simp [entriesAt, highlighted, endings]
  | search => rfl

/-- The entries of a note are named after its path, one for each ending. -/
theorem keys_noteOutputs {name text : Text} {entries : Mapping Text}
    (made : wishes.noteOutputs format activity name text = .ok entries) :
    ∃ base, basis activity name = .ok base ∧ entries.keys = (endings activity).map (base ++ ·) := by
  rw [noteOutputs_eq] at made
  cases named : basis activity name with
  | error path => simp [named, Except.map] at made
  | ok base =>
    simp only [named, Except.map, Except.ok.injEq] at made
    exact ⟨base, rfl, made ▸ keys_entriesAt name text base⟩

/-- Something can be made of every note but one whose path has no name, of which nothing can be
    resolved and highlighted. -/
theorem noteOutputs_ok_iff (name text : Text) :
    (∃ entries, wishes.noteOutputs format activity name text = .ok entries) ↔
      (activity = .resolve ∨ activity = .highlight → (Path.ofText name).parts ≠ []) := by
  have basis_iff : (∃ entries, wishes.noteOutputs format activity name text = .ok entries) ↔
      ∃ base, basis activity name = .ok base := by
    rw [noteOutputs_eq]
    cases basis activity name <;> simp [Except.map]
  have stem_iff : (∃ base, stem name = .ok base) ↔ (Path.ofText name).parts ≠ [] := by
    constructor
    · rintro ⟨base, made⟩ unnamed
      simp [stem_of_unnamed unnamed] at made
    · exact stem_of_named
  rw [basis_iff]
  cases activity with
  | encode => simp [basis]
  | search => simp [basis]
  | resolve => simp [basis, stem_iff]
  | highlight => simp [basis, stem_iff]

/-- No two entries of one note have one name. -/
theorem nodup_keys_noteOutputs {name text : Text} {entries : Mapping Text}
    (made : wishes.noteOutputs format activity name text = .ok entries) :
    entries.keys.Nodup := by
  obtain ⟨base, _, keys⟩ := keys_noteOutputs made
  rw [keys]
  exact (nodup_endings activity).map (List.append_right_injective base)

/-- Notes that share the name of one entry share their path. -/
theorem basis_eq_of_shared {first second : Text × Text}
    {firstEntries secondEntries : Mapping Text} {key : Text}
    (firstMade : wishes.noteOutputs format activity first.1 first.2 = .ok firstEntries)
    (secondMade : wishes.noteOutputs format activity second.1 second.2 = .ok secondEntries)
    (firstKey : key ∈ firstEntries.keys) (secondKey : key ∈ secondEntries.keys) :
    basis activity first.1 = basis activity second.1 := by
  obtain ⟨firstBase, firstNamed, firstKeys⟩ := keys_noteOutputs firstMade
  obtain ⟨secondBase, secondNamed, secondKeys⟩ := keys_noteOutputs secondMade
  rw [firstKeys, List.mem_map] at firstKey
  rw [secondKeys, List.mem_map] at secondKey
  obtain ⟨firstEnding, firstMember, rfl⟩ := firstKey
  obtain ⟨secondEnding, secondMember, same⟩ := secondKey
  have lengths := length_endings activity _ secondMember _ firstMember
  rw [firstNamed, secondNamed, (List.append_inj' same lengths).1]

/-! ## The entries of all notes -/

/-- What is made of a note on its own is among what was made of all notes. -/
def IsKept (wishes : Wishes) (format : Highlight.Formatter) (activity : Activity)
    (made : Mapping Text) (note : Text × Text) : Prop :=
  ∃ entries, wishes.noteOutputs format activity note.1 note.2 = .ok entries ∧
    ∀ entry ∈ entries, made.get? entry.1 = some entry.2

/-- Two notes are made into the same, or into entries named after different paths. -/
def Agree (wishes : Wishes) (format : Highlight.Formatter) (activity : Activity)
    (first second : Text × Text) : Prop :=
  basis activity first.1 = basis activity second.1 →
    wishes.noteOutputs format activity first.1 first.2 =
      wishes.noteOutputs format activity second.1 second.2

/-- Notes are gone through one after the other, as long as something can be made of them. -/
theorem outputsAfter_cons_ok_iff {made whole : Mapping Text} {note : Text × Text}
    {rest : Mapping Text} :
    wishes.outputsAfter format activity made (note :: rest) = .ok whole ↔
      ∃ entries, wishes.noteOutputs format activity note.1 note.2 = .ok entries ∧
        wishes.outputsAfter format activity (made.update entries) rest = .ok whole := by
  rw [outputsAfter]
  cases wishes.noteOutputs format activity note.1 note.2 <;> simp [bind, Except.bind]

/-- Something can be made of notes if it can be made of each of them. -/
theorem outputsAfter_ok_iff (made notes : Mapping Text) :
    (∃ whole, wishes.outputsAfter format activity made notes = .ok whole) ↔
      ∀ note ∈ notes,
        ∃ entries, wishes.noteOutputs format activity note.1 note.2 = .ok entries := by
  induction notes generalizing made with
  | nil => simp [outputsAfter]
  | cons note rest inductionHypothesis =>
    simp only [outputsAfter_cons_ok_iff, List.forall_mem_cons]
    rw [exists_comm]
    simp only [exists_and_left, inductionHypothesis, exists_and_right]

/-- Going through the notes leaves an entry if no note assigns another value to its name. -/
theorem get?_outputsAfter {made whole notes : Mapping Text} {key value : Text}
    (run : wishes.outputsAfter format activity made notes = .ok whole)
    (agree : ∀ note ∈ notes, ∀ entries,
      wishes.noteOutputs format activity note.1 note.2 = .ok entries →
        ∀ entry ∈ entries, entry.1 = key → entry.2 = value)
    (present : made.get? key = some value ∨ ∃ note ∈ notes, ∃ entries,
      wishes.noteOutputs format activity note.1 note.2 = .ok entries ∧ key ∈ entries.keys) :
    whole.get? key = some value := by
  induction notes generalizing made with
  | nil =>
    cases run
    exact present.resolve_right (by simp)
  | cons note rest inductionHypothesis =>
    obtain ⟨entries, entriesMade, later⟩ := outputsAfter_cons_ok_iff.mp run
    obtain ⟨agreeHere, agreeLater⟩ := List.forall_mem_cons.mp agree
    have written := Mapping.get?_update_of_agree made entries key value
      (agreeHere entries entriesMade)
    apply inductionHypothesis later agreeLater
    rcases present with there | ⟨writer, member, writerEntries, writerMade, assigned⟩
    · exact Or.inl (written (Or.inl there))
    · rcases List.mem_cons.mp member with rfl | further
      · rw [entriesMade] at writerMade
        cases writerMade
        exact Or.inl (written (Or.inr assigned))
      · exact Or.inr ⟨writer, further, writerEntries, writerMade, assigned⟩

/-- Notes that agree with each other are all kept. -/
theorem isKept_of_agree {notes whole : Mapping Text}
    (run : wishes.outputs format activity notes = .ok whole)
    (agree : ∀ first ∈ notes, ∀ second ∈ notes, wishes.Agree format activity first second)
    (note : Text × Text) (member : note ∈ notes) : wishes.IsKept format activity whole note := by
  obtain ⟨entries, entriesMade⟩ := (outputsAfter_ok_iff [] notes).mp ⟨whole, run⟩ note member
  refine ⟨entries, entriesMade, fun entry inside => ?_⟩
  have assigned : entry.1 ∈ entries.keys := List.mem_map_of_mem inside
  refine get?_outputsAfter run ?_ (Or.inr ⟨note, member, entries, entriesMade, assigned⟩)
  intro other otherMember otherEntries otherMade otherEntry otherInside sameKey
  have otherAssigned : entry.1 ∈ otherEntries.keys :=
    sameKey ▸ List.mem_map_of_mem otherInside
  have samePath := basis_eq_of_shared entriesMade otherMade assigned otherAssigned
  have sameEntries := agree note member other otherMember samePath
  rw [entriesMade, otherMade, Except.ok.injEq] at sameEntries
  subst sameEntries
  have once := nodup_keys_noteOutputs entriesMade
  rw [List.inj_on_of_nodup_map once otherInside inside sameKey]

/-- Kept entries are decided by their names. -/
theorem eq_of_kept {whole entries : Mapping Text}
    (kept : ∀ entry ∈ entries, whole.get? entry.1 = some entry.2) :
    entries = entries.keys.map fun key => (key, (whole.get? key).getD []) := by
  rw [Mapping.keys, List.map_map]
  calc entries = entries.map id := (List.map_id entries).symm
    _ = entries.map _ := List.map_congr_left fun entry member => by simp [kept entry member]

/-- Notes that are all kept agree with each other. -/
theorem agree_of_isKept {whole : Mapping Text} {first second : Text × Text}
    (firstKept : wishes.IsKept format activity whole first)
    (secondKept : wishes.IsKept format activity whole second) :
    wishes.Agree format activity first second := by
  intro samePath
  obtain ⟨firstEntries, firstMade, firstThere⟩ := firstKept
  obtain ⟨secondEntries, secondMade, secondThere⟩ := secondKept
  obtain ⟨firstBase, firstNamed, firstKeys⟩ := keys_noteOutputs firstMade
  obtain ⟨secondBase, secondNamed, secondKeys⟩ := keys_noteOutputs secondMade
  rw [firstNamed, secondNamed, Except.ok.injEq] at samePath
  subst samePath
  rw [firstMade, secondMade, eq_of_kept firstThere, eq_of_kept secondThere, firstKeys, secondKeys]

/-- Notes agree if no two of them are named after one path. -/
theorem agree_of_nodup {notes : Mapping Text} {paths : List Text}
    (named : notes.map (fun note => basis activity note.1) = paths.map .ok)
    (apart : paths.Nodup) :
    ∀ first ∈ notes, ∀ second ∈ notes, wishes.Agree format activity first second := by
  intro first firstMember second secondMember samePath
  have apartNotes : (notes.map fun note => basis activity note.1).Nodup :=
    named ▸ apart.map fun _ _ => Except.ok.inj
  rw [List.inj_on_of_nodup_map apartNotes firstMember secondMember samePath]

/-- Notes of different names are encoded without loss. Resolving and highlighting them, which needs
    paths with names, loses nothing exactly if notes whose names differ in the suffix only are made
    into the same.

    Proof: a run assigns what is made of each note in order, so an entry stays when all notes that
    assign its name assign its value. Two notes that share one name share their path, and so all
    their names. -/
theorem outputs_isKept_iff (wishes : Wishes) (format : Highlight.Formatter) (activity : Activity)
    (notes : Mapping Text) (once : notes.keys.Nodup) :
    ((∃ whole, wishes.outputs format activity notes = .ok whole) ↔
      (activity = .resolve ∨ activity = .highlight →
        ∀ name ∈ notes.keys, (Path.ofText name).parts ≠ [])) ∧
    ∀ whole, wishes.outputs format activity notes = .ok whole →
      ((∀ note ∈ notes, wishes.IsKept format activity whole note) ↔
        ∀ first ∈ notes, ∀ second ∈ notes, wishes.Agree format activity first second) ∧
      (activity = .encode → ∀ note ∈ notes, wishes.IsKept format activity whole note) := by
  refine ⟨?_, fun whole run => ⟨⟨?_, isKept_of_agree run⟩, ?_⟩⟩
  · rw [outputs, outputsAfter_ok_iff]
    simp only [noteOutputs_ok_iff, Mapping.keys, List.forall_mem_map]
    exact ⟨fun named act note member => named note member act,
      fun named note member act => named act note member⟩
  · intro kept first firstMember second secondMember
    exact agree_of_isKept (kept first firstMember) (kept second secondMember)
  · rintro rfl
    have named : notes.map (fun note => basis .encode note.1) = notes.keys.map .ok := by
      rw [Mapping.keys, List.map_map]
      rfl
    exact isKept_of_agree run (agree_of_nodup named once)

/-- A formatter that shows a title and the texts of lexemes. -/
def bareFormatter : Highlight.Formatter := fun title lexemes =>
  title ++ lexemes.flatMap Highlight.Lexeme.value

/-- Notes of one name in two folders, one of them with a suffix, are all resolved. -/
theorem outputs_isKept_folders :
    (Mapping.keys [("a/n.md".toList, "x".toList), ("b/n".toList, ":::hide y:::".toList)]).Nodup ∧
      ∃ whole, outputs {} bareFormatter .resolve
          [("a/n.md".toList, "x".toList), ("b/n".toList, ":::hide y:::".toList)] = .ok whole ∧
        ∀ note ∈ [("a/n.md".toList, "x".toList), ("b/n".toList, ":::hide y:::".toList)],
          IsKept {} bareFormatter .resolve whole note := by
  have once : (Mapping.keys
      [("a/n.md".toList, "x".toList), ("b/n".toList, ":::hide y:::".toList)]).Nodup := by
    decide
  have named : [("a/n.md".toList, "x".toList), ("b/n".toList, ":::hide y:::".toList)].map
      (fun note => basis .resolve note.1) = ["a/n".toList, "b/n".toList].map .ok := rfl
  obtain ⟨runs_iff, kept_iff⟩ := outputs_isKept_iff {} bareFormatter .resolve _ once
  obtain ⟨whole, run⟩ := runs_iff.mpr fun _ => by decide
  exact ⟨once, whole, run, (kept_iff whole run).1.mpr (agree_of_nodup named (by decide))⟩

/-- Of two notes whose names differ in the suffix only, the page of the first is lost. -/
theorem outputs_highlight_lost :
    (Mapping.keys [("a.md".toList, "x".toList), ("a.txt".toList, "y".toList)]).Nodup ∧
      outputs {} bareFormatter .highlight
          [("a.md".toList, "x".toList), ("a.txt".toList, "y".toList)] =
        .ok [("a.html".toList, Highlight.page bareFormatter "a.txt".toList "y".toList)] ∧
      ¬IsKept {} bareFormatter .highlight
        [("a.html".toList, Highlight.page bareFormatter "a.txt".toList "y".toList)]
        ("a.md".toList, "x".toList) := by
  refine ⟨by decide, rfl, ?_⟩
  rintro ⟨entries, made, kept⟩
  have entry : ("a.html".toList, Highlight.page bareFormatter "a.md".toList "x".toList) ∈
      entries := by
    cases made
    exact List.mem_singleton_self _
  have samePage := Option.some.inj (kept _ entry)
  exact absurd samePage (by decide +kernel)

end Wishes

end HiddenContent
