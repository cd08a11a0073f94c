import HiddenContent.Proofs.Rewriting
import HiddenContent.Proofs.TokenText

/-!
# Regions among lines, and the lines that encoding leaves

An opener line holds one marker, a word and a blob. A closed region is an opener line, the hidden
lines, and the first closer line that leaves no level open. Encoding puts one token line in the
place of each region and keeps every other line, so it leaves fewer lines as soon as there is
a region, and all of them stand on one line each.
-/

namespace HiddenContent

namespace Text

/-- The lines of a text hold no line feed. -/
theorem lineFeed_not_mem_lines (text line : Text) (member : line ∈ text.lines) : '\n' ∉ line := by
  rw [lines] at member
  induction text generalizing line with
  | nil =>
    have empty : line = [] := by simpa using member
    simp [empty]
  | cons c rest inductionHypothesis =>
    rw [List.splitOn_cons_eq_if_modifyHead] at member
    split at member
    · rcases List.mem_cons.mp member with rfl | later
      · simp
      · exact inductionHypothesis line later
    · rename_i other
      cases same : rest.splitOn '\n' with
      | nil => simp [same] at member
      | cons first others =>
        rw [same, List.modifyHead_cons] at member
        rcases List.mem_cons.mp member with rfl | later
        · have single := inductionHypothesis first (by simp [same])
          simpa [single] using Ne.symm (by simpa using other)
        · exact inductionHypothesis line (by simp [same, later])

/-- Joined lines are cut again where they were joined. -/
theorem lines_ofLines (lines : List Text) (single : ∀ line ∈ lines, '\n' ∉ line)
    (inhabited : lines ≠ []) : (ofLines lines).lines = lines :=
  List.splitOn_intercalate '\n' single inhabited

/-- Every text has a line. -/
theorem lines_ne_nil (text : Text) : text.lines ≠ [] := List.splitOn_ne_nil '\n' text

/-- A text with a line feed is its first line and the lines of the rest. -/
theorem lines_append_lineFeed (line rest : Text) (single : '\n' ∉ line) :
    Text.lines (line ++ '\n' :: rest) = line :: rest.lines := by
  have parts : line ++ '\n' :: rest = ofLines (line :: rest.lines) := by
    obtain ⟨first, others, same⟩ := List.exists_cons_of_ne_nil (lines_ne_nil rest)
    have whole := ofLines_lines rest
    rw [same] at whole ⊢
    rw [← whole]
    simp [ofLines]
  rw [parts]
  refine lines_ofLines _ ?_ (by simp)
  intro other member
  rcases List.mem_cons.mp member with rfl | later
  · exact single
  · exact lineFeed_not_mem_lines rest other later

/-- Lines joined around one of them: each line before it has a line feed after it, and each line
    after it has one in front. -/
theorem ofLines_around (before : List Text) (line : Text) (after : List Text) :
    ofLines (before ++ line :: after) =
      before.flatMap (· ++ ['\n']) ++ (line ++ after.flatMap ('\n' :: ·)) := by
  induction before with
  | nil =>
    rw [List.nil_append, List.flatMap_nil, List.nil_append]
    induction after generalizing line with
    | nil => simp [ofLines]
    | cons next rest inductionHypothesis =>
      have later := inductionHypothesis next
      rw [ofLines] at later ⊢
      rw [List.intercalate_cons_cons, later]
      simp
  | cons first rest inductionHypothesis =>
    rw [ofLines] at inductionHypothesis ⊢
    cases same : rest ++ line :: after with
    | nil => simp at same
    | cons next others =>
      rw [List.cons_append, same, List.intercalate_cons_cons, ← same, inductionHypothesis]
      simp

/-- A text has one line more than line feeds. -/
theorem length_lines (text : Text) : text.lines.length = text.count '\n' + 1 := by
  rw [lines]
  induction text with
  | nil => rfl
  | cons c rest inductionHypothesis =>
    rw [List.splitOn_cons_eq_if_modifyHead, List.count_cons]
    by_cases feed : c = '\n'
    · simp [feed, inductionHypothesis]
    · simp [feed, inductionHypothesis]

end Text

namespace Span

/-- A blob fills a text exactly when the text is one. -/
theorem blobLength?_eq_length_iff (multiline : Bool) (text : Text) :
    blobLength? multiline text = some text.length ↔ IsBlob multiline text := by
  constructor
  · intro read
    obtain ⟨blob, rest, rfl, length, closed, _⟩ := exists_of_blobLength multiline text _ read
    have empty : rest = [] := by
      simp only [List.length_append] at length
      exact List.length_eq_zero_iff.mp (by omega)
    rwa [empty, List.append_nil]
  · intro closed
    have read := blobLength?_append multiline text [] closed (by simp [Opens])
    rwa [List.append_nil] at read

end Span

/-- An opener line is a marker, a word and a blob between blanks. -/
theorem BlockOpener.ofLine?_eq_some_iff (line : Text) (opener : BlockOpener) :
    ofLine? line = some opener ↔
      line.strip = Span.marker ++ (opener.action ++ opener.blob) ∧ opener.action.IsWordRun ∧
        Span.IsBlob false opener.blob := by
  constructor
  · intro read
    rw [ofLine?] at read
    split at read
    · simp at read
    · rename_i action rest head
      split at read
      · rename_i full
        simp only [Option.some.injEq] at read
        subst read
        obtain ⟨begins, run, _⟩ := (Span.inlineHead?_eq_some_iff _ _ _).mp head
        exact ⟨begins, run, (Span.blobLength?_eq_length_iff false rest).mp full⟩
      · simp at read
  · rintro ⟨begins, run, closed⟩
    have stops : opener.blob.StopsAt Text.isWord := by
      rcases closed with empty | ⟨inside, braces, _⟩
      · rw [empty]
        exact Text.stopsAt_nil _
      · rw [braces, Text.stopsAt_cons]
        decide
    have head := (Span.inlineHead?_eq_some_iff _ _ _).mpr ⟨begins, run, stops⟩
    have full := (Span.blobLength?_eq_length_iff false opener.blob).mpr closed
    simp [ofLine?, head, full]

namespace BlockStart

/-- A line opens a block of an action when it is an opener line with that action. -/
theorem acting?_eq_some_iff (action line : Text) (opener : BlockOpener) :
    acting? action line = some opener ↔
      BlockOpener.ofLine? line = some opener ∧ opener.action = action := by
  rw [acting?]
  rw [Option.filter_eq_some_iff]
  simp

/-- A line opens a block of an action when that is the action of its opener. -/
theorem acting?_isSome_iff (action line : Text) :
    (acting? action line).isSome = true ↔
      (BlockOpener.ofLine? line).map BlockOpener.action = some action := by
  simp only [Option.isSome_iff_exists, acting?_eq_some_iff, Option.map_eq_some_iff]

/-- The blob of an opener stands in its line. -/
theorem blob_subset {action line : Text} {opener : BlockOpener}
    (read : acting? action line = some opener) : opener.blob ⊆ line := by
  obtain ⟨opened, _⟩ := (acting?_eq_some_iff action line opener).mp read
  obtain ⟨begins, _⟩ := (BlockOpener.ofLine?_eq_some_iff line opener).mp opened
  intro c present
  apply Text.strip_subset line
  rw [begins]
  simp [present]

/-- An action that opens a region is a word. -/
theorem action_word {action line : Text} {opener : BlockOpener}
    (read : acting? action line = some opener) : action.IsWordRun := by
  obtain ⟨opened, rfl⟩ := (acting?_eq_some_iff action line opener).mp read
  exact ((BlockOpener.ofLine?_eq_some_iff line opener).mp opened).2.1

/-- The first opener of an action has none of that action before it. -/
theorem exists_of_find {action : Text} {lines : List Text} {start : BlockStart}
    (found : find? action lines = some start) :
    ∃ line, lines = start.before ++ line :: start.after ∧
      acting? action line = some start.opener ∧
      ∀ other ∈ start.before, acting? action other = none := by
  induction lines generalizing start with
  | nil => simp [find?] at found
  | cons line rest inductionHypothesis =>
    rw [find?] at found
    split at found
    · rename_i opener read
      simp only [Option.some.injEq] at found
      subst found
      exact ⟨line, rfl, read, by simp⟩
    · rename_i refused
      obtain ⟨inner, later, rfl⟩ := Option.map_eq_some_iff.mp found
      obtain ⟨opening, same, read, none⟩ := inductionHypothesis later
      exact ⟨opening, by rw [same, List.cons_append], read, by simpa using ⟨refused, none⟩⟩

end BlockStart

namespace ClosedBlock

/-- The same block with one more hidden line in front. -/
def within (line : Text) (block : ClosedBlock) : ClosedBlock :=
  { block with interior := line :: block.interior }

/-- The number of open levels after a line, besides the outer one; there is none when the line
    closes the outer level. -/
def levelAfter? (nested : Nat) (line : Text) : Option Nat :=
  if (BlockOpener.ofLine? line).isSome then some (nested + 1)
  else if isBlockCloser line then
    match nested with
    | 0 => none
    | level + 1 => some level
  else some nested

/-- The closer of the outer level is the first line after which it is not open. -/
theorem ofLines?_cons (nested : Nat) (line : Text) (rest : List Text) :
    ofLines? nested (line :: rest) =
      match levelAfter? nested line with
      | none => some ⟨[], rest⟩
      | some level => (ofLines? level rest).map (within line) := by
  simp only [levelAfter?]
  rw [ofLines?.eq_def]
  simp only
  split
  · rfl
  · split
    · cases nested <;> rfl
    · rfl

/-- Only a closer line with no further level open closes the outer level. -/
theorem levelAfter?_eq_none {nested : Nat} {line : Text} (closes : levelAfter? nested line = none) :
    nested = 0 ∧ BlockOpener.ofLine? line = none ∧ isBlockCloser line = true := by
  simp only [levelAfter?] at closes
  split at closes
  · simp at closes
  · rename_i unopened
    split at closes
    · rename_i ends
      cases nested with
      | zero => exact ⟨rfl, by simpa using unopened, ends⟩
      | succ level => simp at closes
    · simp at closes

/-- A block ends with a closer line. -/
theorem exists_of_ofLines {nested : Nat} {lines : List Text} {block : ClosedBlock}
    (found : ofLines? nested lines = some block) :
    ∃ closer, lines = block.interior ++ closer :: block.after ∧ isBlockCloser closer = true := by
  induction lines generalizing nested block with
  | nil => simp [ofLines?] at found
  | cons line rest inductionHypothesis =>
    rw [ofLines?_cons] at found
    cases level : levelAfter? nested line with
    | none =>
      simp only [level, Option.some.injEq] at found
      subst found
      exact ⟨line, rfl, (levelAfter?_eq_none level).2.2⟩
    | some next =>
      simp only [level] at found
      obtain ⟨inner, later, rfl⟩ := Option.map_eq_some_iff.mp found
      obtain ⟨closer, same, closes⟩ := inductionHypothesis later
      exact ⟨closer, by rw [same]; rfl, closes⟩

end ClosedBlock

/-- A region stands between its opener line and its closer line. -/
theorem Region.exists_of_first {action : Text} {lines after : List Text} {region : Region}
    (found : first? action lines = some (region, after)) :
    ∃ opening closing,
      lines = region.before ++ opening :: (region.interior ++ closing :: after) ∧
      BlockStart.acting? action opening = some region.opener ∧
      isBlockCloser closing = true ∧
      (∀ other ∈ region.before, BlockStart.acting? action other = none) ∧
      ClosedBlock.ofLines? 0 (region.interior ++ closing :: after) =
        some ⟨region.interior, after⟩ := by
  obtain ⟨start, opened, rest⟩ := Option.bind_eq_some_iff.mp found
  obtain ⟨block, closed, same⟩ := Option.map_eq_some_iff.mp rest
  simp only [Prod.mk.injEq] at same
  obtain ⟨rfl, rfl⟩ := same
  obtain ⟨opening, whole, read, none⟩ := BlockStart.exists_of_find opened
  obtain ⟨closing, inner, closes⟩ := ClosedBlock.exists_of_ofLines closed
  exact ⟨opening, closing, by rw [whole, inner], read, closes, none, by rw [← inner, closed]⟩

namespace Layout

/-- Without a first region, all lines are left. -/
theorem ofLines_of_none {action : Text} {lines : List Text}
    (absent : Region.first? action lines = none) :
    ofLines action lines = { regions := [], rest := lines } := by
  rw [ofLines]
  split
  · rfl
  · rename_i found
    rw [absent] at found
    simp at found

/-- The first region comes first, and the lines behind it are cut as on their own. -/
theorem ofLines_of_first {action : Text} {lines after : List Text} {region : Region}
    (found : Region.first? action lines = some (region, after)) :
    ofLines action lines =
      { regions := region :: (ofLines action after).regions
        rest := (ofLines action after).rest } := by
  rw [ofLines]
  split
  · rename_i absent
    rw [absent] at found
    simp at found
  · rename_i other later same
    rw [same, Option.some.injEq, Prod.mk.injEq] at found
    obtain ⟨rfl, rfl⟩ := found
    rfl

/-- There is a closed region exactly when there is a first one. -/
theorem regions_eq_nil_iff (action : Text) (lines : List Text) :
    (ofLines action lines).regions = [] ↔ Region.first? action lines = none := by
  cases found : Region.first? action lines with
  | none => simp [ofLines_of_none found]
  | some pair =>
    obtain ⟨region, after⟩ := pair
    simp [ofLines_of_first found]

end Layout

namespace Settings

/-- Lines without a region that closes stay as they are. -/
theorem encodeLines_of_none (settings : Settings) {lines : List Text}
    (absent : Region.first? settings.directiveAction lines = none) :
    settings.encodeLines lines = lines := by
  simp [encodeLines, Layout.ofLines_of_none absent]

/-- The first region becomes its token line between the lines before it and the encoded lines behind
    it. -/
theorem encodeLines_of_first (settings : Settings) {lines after : List Text} {region : Region}
    (found : Region.first? settings.directiveAction lines = some (region, after)) :
    settings.encodeLines lines =
      region.before ++ settings.encodeRegion region :: settings.encodeLines after := by
  simp [encodeLines, Layout.ofLines_of_first found]

/-- What holds of lines after encoding follows when it holds of lines without a region, and of the
    lines around the first one when it holds of the lines after it. -/
theorem encodeLines_induction (settings : Settings) {motive : List Text → Prop}
    (none : ∀ lines, Region.first? settings.directiveAction lines = none → motive lines)
    (first : ∀ lines region after,
      Region.first? settings.directiveAction lines = some (region, after) →
        motive after → motive lines)
    (lines : List Text) : motive lines := by
  induction size : Text.linesSize lines using Nat.strong_induction_on generalizing lines with
  | _ bound inductionHypothesis =>
    cases found : Region.first? settings.directiveAction lines with
    | none => exact none lines found
    | some pair =>
      obtain ⟨region, after⟩ := pair
      have smaller := Region.size_lt found
      exact first lines region after found
        (inductionHypothesis (Text.linesSize after) (by omega) after rfl)

/-- Encoding leaves fewer lines exactly when it finds a region, and never more. -/
theorem length_encodeLines (settings : Settings) (lines : List Text) :
    (settings.encodeLines lines).length ≤ lines.length ∧
      ((Layout.ofLines settings.directiveAction lines).regions ≠ [] →
        (settings.encodeLines lines).length < lines.length) := by
  induction lines using settings.encodeLines_induction with
  | none lines absent =>
    rw [settings.encodeLines_of_none absent]
    exact ⟨Nat.le_refl _, fun present =>
      absurd ((Layout.regions_eq_nil_iff _ _).mpr absent) present⟩
  | first lines region after found inductionHypothesis =>
    obtain ⟨opening, closing, whole, _⟩ := Region.exists_of_first found
    have fewer := inductionHypothesis.1
    have length := congrArg List.length whole
    rw [settings.encodeLines_of_first found]
    simp only [List.length_append, List.length_cons] at length ⊢
    exact ⟨by omega, fun _ => by omega⟩

/-- Lines on one line each are encoded as such. -/
theorem lineFeed_not_mem_encodeLines (settings : Settings) (lines : List Text)
    (single : ∀ line ∈ lines, '\n' ∉ line) : ∀ line ∈ settings.encodeLines lines, '\n' ∉ line := by
  induction lines using settings.encodeLines_induction with
  | none lines absent =>
    rw [settings.encodeLines_of_none absent]
    exact single
  | first lines region after found inductionHypothesis =>
    obtain ⟨opening, closing, rfl, read, _⟩ := Region.exists_of_first found
    have later := inductionHypothesis fun line member => single line (by simp [member])
    have blob : '\n' ∉ region.opener.blob := by
      intro present
      exact single opening (by simp) (BlockStart.blob_subset read present)
    have token : '\n' ∉ settings.encodeRegion region :=
      settings.lineFeed_not_mem_token (BlockStart.action_word read) .block _ blob
    rw [settings.encodeLines_of_first found]
    intro line member
    rcases List.mem_append.mp member with before | inside
    · exact single line (by simp [before])
    · rcases List.mem_cons.mp inside with rfl | after
      · exact token
      · exact later line after

/-- Encoding leaves a line where there was one. -/
theorem encodeLines_ne_nil (settings : Settings) (lines : List Text) (inhabited : lines ≠ []) :
    settings.encodeLines lines ≠ [] := by
  cases found : Region.first? settings.directiveAction lines with
  | none => rwa [settings.encodeLines_of_none found]
  | some pair =>
    obtain ⟨region, after⟩ := pair
    rw [settings.encodeLines_of_first found]
    simp

/-- The lines of a text after its blocks are encoded are its encoded lines. -/
theorem lines_encodeBlocks (settings : Settings) (text : Text) :
    (settings.encodeBlocks text).lines = settings.encodeLines text.lines := by
  rw [encodeBlocks]
  apply Text.lines_ofLines
  · exact settings.lineFeed_not_mem_encodeLines _ (Text.lineFeed_not_mem_lines text)
  · exact settings.encodeLines_ne_nil _ (Text.lines_ne_nil text)

end Settings

end HiddenContent
