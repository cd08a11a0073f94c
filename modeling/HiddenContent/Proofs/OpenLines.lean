import HiddenContent.Proofs.LineShape

/-!
# The lines that no closed block hides

`openLines` goes over lines as the scan of units does: it leaves out every closed block, and
after an opener that never closes it goes on with the next line. Three changes of the lines leave
the open lines what they are. Encoding the regions puts a token line in the place of each, and
nothing else; blank lines at the end stay at the end; and lines that count alike for blocks are
open alike.
-/

namespace HiddenContent

/-- The lines outside the closed blocks of an action. -/
def openLines (action : Text) : List Text → List Text
  | [] => []
  | line :: rest =>
    match BlockStart.acting? action line with
    | none => line :: openLines action rest
    | some _ =>
      match _ : ClosedBlock.ofLines? 0 rest with
      | some block => openLines action block.after
      | none => line :: openLines action rest
termination_by lines => lines.length
decreasing_by
  · simp
  · obtain ⟨closer, same, _⟩ := ClosedBlock.exists_of_ofLines ‹_›
    simp only [same, List.length_append, List.length_cons]
    omega
  · simp

/-- Without lines there are no open ones. -/
theorem openLines_nil (action : Text) : openLines action [] = [] := by rw [openLines]

/-- A line that opens nothing is open. -/
theorem openLines_plain {action line : Text} (rest : List Text)
    (plain : BlockStart.acting? action line = none) :
    openLines action (line :: rest) = line :: openLines action rest := by
  rw [openLines, plain]

/-- A block that closes is left out with its opener and its closer. -/
theorem openLines_closed {action line : Text} {rest : List Text} {opener : BlockOpener}
    {block : ClosedBlock} (opens : BlockStart.acting? action line = some opener)
    (closes : ClosedBlock.ofLines? 0 rest = some block) :
    openLines action (line :: rest) = openLines action block.after := by
  rw [openLines, opens]
  simp only
  split
  · rename_i other found
    rw [closes, Option.some.injEq] at found
    rw [found]
  · rename_i absent
    rw [closes] at absent
    exact absurd absent (by simp)

/-- An opener whose block never closes is open. -/
theorem openLines_unclosed {action line : Text} {rest : List Text} {opener : BlockOpener}
    (opens : BlockStart.acting? action line = some opener)
    (never : ClosedBlock.ofLines? 0 rest = none) :
    openLines action (line :: rest) = line :: openLines action rest := by
  rw [openLines, opens]
  simp only
  split
  · rename_i other found
    rw [never] at found
    exact absurd found (by simp)
  · rfl

/-- What holds of the open lines follows for a line that is open before others, and for a block
    that is left out before others. -/
theorem openLines_induction (action : Text) {motive : List Text → Prop} (nil : motive [])
    (plain : ∀ line rest, BlockStart.acting? action line = none → motive rest →
      motive (line :: rest))
    (closed : ∀ line rest opener block, BlockStart.acting? action line = some opener →
      ClosedBlock.ofLines? 0 rest = some block → motive block.after → motive (line :: rest))
    (unclosed : ∀ line rest opener, BlockStart.acting? action line = some opener →
      ClosedBlock.ofLines? 0 rest = none → motive rest → motive (line :: rest))
    (lines : List Text) : motive lines := by
  induction size : lines.length using Nat.strong_induction_on generalizing lines with
  | _ bound inductionHypothesis =>
    cases lines with
    | nil => exact nil
    | cons line rest =>
      rw [List.length_cons] at size
      cases opens : BlockStart.acting? action line with
      | none => exact plain line rest opens (inductionHypothesis _ (by omega) rest rfl)
      | some opener =>
        cases closes : ClosedBlock.ofLines? 0 rest with
        | none =>
          have later := inductionHypothesis rest.length (by omega) rest rfl
          exact unclosed line rest opener opens closes later
        | some block =>
          obtain ⟨closer, same, _⟩ := ClosedBlock.exists_of_ofLines closes
          have counted := congrArg List.length same
          simp only [List.length_append, List.length_cons] at counted
          exact closed line rest opener block opens closes
            (inductionHypothesis _ (by omega) block.after rfl)

/-- Lines that open nothing are open. -/
theorem openLines_append {action : Text} (before rest : List Text)
    (plain : ∀ line ∈ before, BlockStart.acting? action line = none) :
    openLines action (before ++ rest) = before ++ openLines action rest := by
  induction before with
  | nil => rfl
  | cons line others inductionHypothesis =>
    rw [List.cons_append, openLines_plain _ (plain line (by simp)),
      inductionHypothesis fun other member => plain other (by simp [member])]
    rfl

/-! ## Lines at the end -/

namespace ClosedBlock

/-- A block is closed before the lines that come later. -/
theorem ofLines?_append_some {nested : Nat} {lines : List Text} {block : ClosedBlock}
    (closes : ofLines? nested lines = some block) (more : List Text) :
    ofLines? nested (lines ++ more) = some ⟨block.interior, block.after ++ more⟩ := by
  induction lines generalizing nested block with
  | nil => simp [ofLines?] at closes
  | cons line rest inductionHypothesis =>
    rw [ofLines?_cons] at closes
    rw [List.cons_append, ofLines?_cons]
    cases level : levelAfter? nested line with
    | none =>
      simp only [level, Option.some.injEq] at closes
      subst closes
      rfl
    | some next =>
      simp only [level] at closes
      obtain ⟨inner, later, rfl⟩ := Option.map_eq_some_iff.mp closes
      simp only [inductionHypothesis later]
      rfl

/-- Lines that close nothing close no block. -/
theorem ofLines?_append_none {nested : Nat} {lines : List Text} (more : List Text)
    (never : ofLines? nested lines = none)
    (unclosing : ∀ line ∈ more, isBlockCloser line = false) :
    ofLines? nested (lines ++ more) = none := by
  induction lines generalizing nested with
  | nil =>
    cases closes : ofLines? nested ([] ++ more) with
    | none => rfl
    | some block =>
      obtain ⟨closer, same, ends⟩ := exists_of_ofLines closes
      rw [List.nil_append] at same
      rw [unclosing closer (by simp [same])] at ends
      exact absurd ends (by simp)
  | cons line rest inductionHypothesis =>
    rw [ofLines?_cons] at never
    rw [List.cons_append, ofLines?_cons]
    cases level : levelAfter? nested line with
    | none => simp [level] at never
    | some next =>
      simp only [level, Option.map_eq_none_iff] at never
      simp only [inductionHypothesis never, Option.map_none]

end ClosedBlock

/-- A line of blanks opens nothing and closes nothing. -/
theorem not_marked_of_strip_eq_nil {line : Text} (blank : line.strip = []) :
    BlockOpener.ofLine? line = none ∧ isBlockCloser line = false := by
  constructor
  · cases read : BlockOpener.ofLine? line with
    | none => rfl
    | some opener =>
      obtain ⟨whole, _⟩ := (BlockOpener.ofLine?_eq_some_iff line opener).mp read
      simp [blank, Span.marker] at whole
  · simp [isBlockCloser, blank, Span.marker]

/-- A line that is no opener line opens no block of any action. -/
theorem BlockStart.acting?_eq_none_of_unopened {line : Text} (action : Text)
    (unopened : BlockOpener.ofLine? line = none) : acting? action line = none := by
  simp [acting?, unopened]

/-- Blank lines at the end are open. -/
theorem openLines_append_blanks (action : Text) (lines blanks : List Text)
    (blank : ∀ line ∈ blanks, line.strip = []) :
    openLines action (lines ++ blanks) = openLines action lines ++ blanks := by
  have plain : ∀ line ∈ blanks, BlockStart.acting? action line = none := by
    intro line member
    apply BlockStart.acting?_eq_none_of_unopened action
    exact (not_marked_of_strip_eq_nil (blank line member)).1
  have unclosing : ∀ line ∈ blanks, isBlockCloser line = false := by
    intro line member
    exact (not_marked_of_strip_eq_nil (blank line member)).2
  induction lines using openLines_induction action with
  | nil =>
    have all := openLines_append blanks [] plain
    rw [List.append_nil, openLines_nil, List.append_nil] at all
    rw [List.nil_append, openLines_nil, List.nil_append, all]
  | plain line rest opens inductionHypothesis =>
    rw [List.cons_append, openLines_plain _ opens, openLines_plain _ opens, inductionHypothesis]
    rfl
  | closed line rest opener block opens closes inductionHypothesis =>
    rw [List.cons_append, openLines_closed opens (ClosedBlock.ofLines?_append_some closes blanks),
      openLines_closed opens closes]
    exact inductionHypothesis
  | unclosed line rest opener opens never inductionHypothesis =>
    rw [List.cons_append, openLines_unclosed opens
      (ClosedBlock.ofLines?_append_none blanks never unclosing), openLines_unclosed opens never,
      inductionHypothesis]
    rfl

/-! ## Encoded regions -/

/-- A token line opens no block. -/
theorem Settings.acting?_token (settings : Settings) (mode : Mode) (attributes : Attributes)
    (action : Text) : BlockStart.acting? action (settings.token mode attributes) = none := by
  apply BlockStart.acting?_eq_none_of_unopened
  cases read : BlockOpener.ofLine? (settings.token mode attributes) with
  | none => rfl
  | some opener =>
    obtain ⟨whole, _⟩ := (BlockOpener.ofLine?_eq_some_iff _ opener).mp read
    have trimmed : (settings.token mode attributes).IsTrimmed := by
      rw [settings.token_eq]
      refine ⟨(Text.stopsAt_cons _ _ _).mpr (by decide), ?_⟩
      rw [← List.append_assoc]
      exact (Text.endsUnblank_append _ [']'] (by simp)).mpr
        ((Text.stopsAt_cons Text.isBlank ']' []).mpr (by decide))
    rw [trimmed.strip_eq, settings.token_eq] at whole
    simp [Span.placeholderOpening, Span.marker] at whole

/-- Lines that open no block of an action have no region before those behind them. -/
theorem Region.first?_append_eq_none {action : Text} {before rest : List Text}
    (plain : ∀ line ∈ before, BlockStart.acting? action line = none)
    (absent : first? action rest = none) : first? action (before ++ rest) = none := by
  induction before with
  | nil => exact absent
  | cons line others inductionHypothesis =>
    obtain ⟨unopened, plains⟩ := List.forall_mem_cons.mp plain
    have later := inductionHypothesis plains
    rw [first?] at later ⊢
    rw [List.cons_append, BlockStart.find?, unopened]
    cases opened : BlockStart.find? action (others ++ rest) with
    | none => rfl
    | some start => simpa [opened] using later

/-- The lines that encoding leaves have no region that closes. -/
theorem Settings.first?_encodeLines (settings : Settings) (lines : List Text) :
    Region.first? settings.directiveAction (settings.encodeLines lines) = none := by
  induction lines using settings.encodeLines_induction with
  | none lines absent =>
    rw [settings.encodeLines_of_none absent]
    exact absent
  | first lines region after found inductionHypothesis =>
    obtain ⟨_, _, _, _, _, plain, _⟩ := Region.exists_of_first found
    rw [settings.encodeLines_of_first found]
    refine Region.first?_append_eq_none plain ?_
    have token : ∀ line ∈ [settings.encodeRegion region],
        BlockStart.acting? settings.directiveAction line = none := by
      rw [List.forall_mem_singleton]
      exact settings.acting?_token .block _ _
    exact Region.first?_append_eq_none token inductionHypothesis

/-- When token lines show nothing, encoded lines show on their open lines what the lines show. -/
theorem Settings.flatMap_openLines_encodeLines (settings : Settings) (shows : Text → Text)
    (silent : settings.directiveAction.IsWordRun → ∀ attributes,
      shows (settings.token .block attributes) = []) (lines : List Text) :
    (openLines settings.directiveAction (settings.encodeLines lines)).flatMap shows =
      (openLines settings.directiveAction lines).flatMap shows := by
  induction lines using settings.encodeLines_induction with
  | none lines absent => rw [settings.encodeLines_of_none absent]
  | first lines region after found inductionHypothesis =>
    obtain ⟨opening, closing, rfl, read, _, plain, closes⟩ := Region.exists_of_first found
    have token : shows (settings.encodeRegion region) = [] :=
      silent (BlockStart.action_word read) _
    have unopened : BlockStart.acting? settings.directiveAction (settings.encodeRegion region) =
        none := settings.acting?_token .block _ _
    rw [settings.encodeLines_of_first found, openLines_append _ _ plain,
      openLines_append _ _ plain, openLines_closed read closes, openLines_plain _ unopened]
    simp only [List.flatMap_append, List.flatMap_cons, token, List.nil_append, inductionHypothesis]

/-! ## Lines that count alike -/

section Alike

variable {alike : Text → Text → Prop}
  (shape : ∀ line other, alike line other → SameShape line other)

include shape

/-- Lines that count alike close alike. -/
theorem ClosedBlock.levelAfter?_alike {line other : Text} (related : alike line other)
    (nested : Nat) : levelAfter? nested line = levelAfter? nested other := by
  have same := shape line other related
  have opener : (BlockOpener.ofLine? line).isSome = (BlockOpener.ofLine? other).isSome := by
    have mapped := congrArg Option.isSome same.opener
    rwa [Option.isSome_map, Option.isSome_map] at mapped
  simp only [levelAfter?]
  rw [opener, same.closer]

/-- Either no block closes in two sequences of lines that count alike, or the lines after the two
    blocks count alike. -/
theorem ClosedBlock.ofLines?_alike {lines others : List Text}
    (related : List.Forall₂ alike lines others) (nested : Nat) :
    (ofLines? nested lines = none ∧ ofLines? nested others = none) ∨
      ∃ block partner, ofLines? nested lines = some block ∧
        ofLines? nested others = some partner ∧
        List.Forall₂ alike block.after partner.after := by
  induction related generalizing nested with
  | nil => exact Or.inl ⟨rfl, rfl⟩
  | @cons line other rest more first later inductionHypothesis =>
    rw [ofLines?_cons, ofLines?_cons, levelAfter?_alike shape first]
    cases level : levelAfter? nested other with
    | none => exact Or.inr ⟨_, _, rfl, rfl, later⟩
    | some next =>
      rcases inductionHypothesis next with ⟨left, right⟩ | ⟨block, partner, left, right, after⟩
      · exact Or.inl ⟨by simp [left], by simp [right]⟩
      · exact Or.inr ⟨within line block, within other partner, by simp [left], by simp [right],
          after⟩

/-- Lines that count alike open a block of an action or not. -/
theorem BlockStart.acting?_alike (action : Text) {line other : Text}
    (related : alike line other) :
    (acting? action line).isSome = (acting? action other).isSome := by
  rw [Bool.eq_iff_iff, acting?_isSome_iff, acting?_isSome_iff, (shape line other related).opener]

/-- Lines that count alike have the first opener of an action at the same place, and the lines
    behind it count alike. -/
theorem BlockStart.find?_alike (action : Text) {lines others : List Text}
    (related : List.Forall₂ alike lines others) :
    (find? action lines = none ∧ find? action others = none) ∨
      ∃ start partner, find? action lines = some start ∧ find? action others = some partner ∧
        List.Forall₂ alike start.after partner.after := by
  induction related with
  | nil => exact Or.inl ⟨rfl, rfl⟩
  | @cons line other rest more first later inductionHypothesis =>
    have same := acting?_alike shape action first
    rw [find?, find?]
    cases opens : acting? action line with
    | none =>
      rw [opens] at same
      have plain := Option.isSome_eq_false_iff.mp same.symm
      rw [Option.isNone_iff_eq_none] at plain
      rw [plain]
      rcases inductionHypothesis with ⟨left, right⟩ | ⟨start, partner, left, right, after⟩
      · exact Or.inl ⟨by simp [left], by simp [right]⟩
      · exact Or.inr ⟨{ start with before := line :: start.before },
          { partner with before := other :: partner.before }, by simp [left], by simp [right],
          after⟩
    | some opener =>
      rw [opens] at same
      obtain ⟨another, reopens⟩ := Option.isSome_iff_exists.mp same.symm
      rw [reopens]
      exact Or.inr ⟨_, _, rfl, rfl, later⟩

/-- Where no region closes among lines, none closes among lines that count alike. -/
theorem Region.first?_alike (action : Text) {lines others : List Text}
    (related : List.Forall₂ alike lines others) (absent : first? action lines = none) :
    first? action others = none := by
  rw [first?] at absent ⊢
  rcases BlockStart.find?_alike shape action related with
    ⟨_, unopened⟩ | ⟨start, partner, opened, reopened, after⟩
  · rw [unopened, Option.bind_none]
  · rw [opened, Option.bind_some, Option.map_eq_none_iff] at absent
    rcases ClosedBlock.ofLines?_alike shape after 0 with
      ⟨_, unclosed⟩ | ⟨block, _, closes, _⟩
    · rw [reopened, Option.bind_some, unclosed, Option.map_none]
    · rw [absent] at closes
      exact absurd closes (by simp)

/-- Lines that count alike have open lines that do. -/
theorem openLines_alike (action : Text) {lines others : List Text}
    (related : List.Forall₂ alike lines others) :
    List.Forall₂ alike (openLines action lines) (openLines action others) := by
  induction lines using openLines_induction action generalizing others with
  | nil =>
    cases related
    rw [openLines_nil]
    exact .nil
  | plain line rest opens inductionHypothesis =>
    cases related with
    | @cons _ other _ more first later =>
      have same := BlockStart.acting?_alike shape action first
      rw [opens] at same
      have plain := Option.isSome_eq_false_iff.mp same.symm
      rw [Option.isNone_iff_eq_none] at plain
      rw [openLines_plain _ opens, openLines_plain _ plain]
      exact .cons first (inductionHypothesis later)
  | closed line rest opener block opens closes inductionHypothesis =>
    cases related with
    | @cons _ other _ more first later =>
      have same := BlockStart.acting?_alike shape action first
      rw [opens] at same
      obtain ⟨another, reopens⟩ := Option.isSome_iff_exists.mp same.symm
      rcases ClosedBlock.ofLines?_alike shape later 0 with
        ⟨never, _⟩ | ⟨found, partner, left, right, after⟩
      · rw [never] at closes
        exact absurd closes (by simp)
      · rw [closes, Option.some.injEq] at left
        subst left
        rw [openLines_closed opens closes, openLines_closed reopens right]
        exact inductionHypothesis after
  | unclosed line rest opener opens never inductionHypothesis =>
    cases related with
    | @cons _ other _ more first later =>
      have same := BlockStart.acting?_alike shape action first
      rw [opens] at same
      obtain ⟨another, reopens⟩ := Option.isSome_iff_exists.mp same.symm
      rcases ClosedBlock.ofLines?_alike shape later 0 with
        ⟨_, still⟩ | ⟨found, partner, left, _, _⟩
      · rw [openLines_unclosed opens never, openLines_unclosed reopens still]
        exact .cons first (inductionHypothesis later)
      · rw [never] at left
        exact absurd left (by simp)

end Alike

end HiddenContent
