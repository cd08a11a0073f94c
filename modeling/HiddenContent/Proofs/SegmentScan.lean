import HiddenContent.Proofs.LineUnits

/-!
# The blocks of a segmented note

The regions of a note are found by line number: the search for the next one starts behind the closer
of the one before, and stops at one that never closes. The scan over the units of the same note
takes one unit after the other and sees no line number at all. They find the same blocks. The scan
yields one hidden block for each region that closes, in place of the closer's unit and around the
units of the hidden lines; it leaves every unit outside the regions as it is; and it ends inside a
block exactly when the last region never closes, with the units after that opener in its hands.

The inductions follow the regions. A region and the lines before it are one stretch of the scan,
which begins outside any block and ends so when the region closes, and what the later regions say of
the units behind it is not touched by the region itself.
-/

namespace HiddenContent

/-- A part of a list is what stands at its numbers. -/
theorem filterMap_range'_eq {α : Type} (items inside rest : List α) (start : Nat)
    (parts : items.drop start = inside ++ rest) :
    ((List.range' start inside.length).filterMap fun number => items[number]?) = inside := by
  induction inside generalizing start with
  | nil => rfl
  | cons item more inductionHypothesis =>
    have here : items[start]? = some item := by
      rw [← Nat.add_zero start, ← List.getElem?_drop, parts]
      rfl
    have next : items.drop (start + 1) = more ++ rest := by
      rw [← List.drop_drop, parts]
      rfl
    rw [List.length_cons, List.range'_succ, List.filterMap_cons, here,
      inductionHypothesis (start + 1) next]

/-- Where numbers do not count, numbered items are mapped like items. -/
theorem map_zipIdx_eq_map {α β : Type} (items : List α) (start : Nat) (image : α × Nat → β)
    (plain : α → β)
    (same : ∀ item number, start ≤ number → number < start + items.length →
      image (item, number) = plain item) :
    (items.zipIdx start).map image = items.map plain := by
  conv => rhs; rw [← List.zipIdx_map_fst start items, List.map_map]
  apply List.map_congr_left
  rintro ⟨item, number⟩ member
  exact same item number (List.le_snd_of_mem_zipIdx member) (List.snd_lt_add_of_mem_zipIdx member)

/-! ## The regions by line number -/

/-- Lines at the end that open no block of an action come after its first opener. -/
theorem BlockStart.find?_append_plain {action : Text} (lines more : List Text)
    (plain : ∀ line ∈ more, acting? action line = none) :
    find? action (lines ++ more) =
      (find? action lines).map fun start => { start with after := start.after ++ more } := by
  induction lines with
  | nil => simp [find?, (find?_eq_none_iff more).mpr plain]
  | cons line rest inductionHypothesis =>
    cases opens : acting? action line with
    | none => simp [find?, opens, inductionHypothesis, Function.comp_def]
    | some opener => simp [find?, opens]

namespace BlockRegion

/-- The regions of an action that are met from a line on, each searched from the line after the
    closer of the one before. None is searched behind a region that never closes. -/
def met (action : Text) (lines : List Text) (start : Nat) : List BlockRegion :=
  match _ : find? action lines start with
  | none => []
  | some region =>
    match _ : region.closerLine with
    | none => [region]
    | some closer => region :: met action lines (closer + 1)
termination_by lines.length - start
decreasing_by
  have bounds := closer_bounds ‹_› ‹_›
  omega

/-- True for the lines of a region: from its opener to its closer, or to the last line when it never
    closes. -/
def covers (region : BlockRegion) (number : Nat) : Bool :=
  region.openerLine ≤ number && region.closerLine.all (number ≤ ·)

/-- A region covers the lines from its opener to its closer, or to the last line when it has none.
    -/
theorem covers_iff (region : BlockRegion) (number : Nat) :
    region.covers number = true ↔
      region.openerLine ≤ number ∧ ∀ closer ∈ region.closerLine, number ≤ closer := by
  simp only [covers, Bool.and_eq_true, Option.all_eq_true, decide_eq_true_eq]
  rfl

/-- No region covers a line before the first of them. -/
theorem find?_covers_eq_none {regions : List BlockRegion} {number : Nat}
    (ahead : ∀ region ∈ regions, number < region.openerLine) :
    regions.find? (·.covers number) = none := by
  rw [List.find?_eq_none]
  intro region member covered
  exact absurd ((covers_iff region number).mp covered).1 (Nat.not_le.mpr (ahead region member))

/-- A region does not cover the lines behind its closer. -/
theorem find?_covers_behind {region : BlockRegion} {closer number : Nat}
    (ends : region.closerLine = some closer) (behind : closer < number)
    (regions : List BlockRegion) :
    (region :: regions).find? (·.covers number) = regions.find? (·.covers number) := by
  have uncovered : ¬region.covers number = true := by
    rw [covers_iff]
    exact fun covered => absurd (covered.2 closer ends) (Nat.not_le.mpr behind)
  exact List.find?_cons_of_neg uncovered

section Met

variable {action : Text} {lines blanks : List Text} {start : Nat} {region : BlockRegion}

/-- No region is met where none is found. -/
theorem met_of_absent (absent : find? action lines start = none) : met action lines start = [] := by
  rw [met.eq_def]
  split
  · rfl
  · rename_i found
    rw [absent] at found
    exact absurd found (by simp)

/-- The region that is found is met first, and the others behind its closer if it has one. -/
theorem met_of_found (found : find? action lines start = some region) :
    met action lines start =
      region :: (region.closerLine.map fun closer => met action lines (closer + 1)).getD [] := by
  rw [met.eq_def]
  split
  · rename_i absent
    rw [absent] at found
    exact absurd found (by simp)
  · rename_i other same
    rw [found, Option.some.injEq] at same
    subst same
    split
    · rename_i unclosed
      rw [unclosed]
      rfl
    · rename_i closer ends
      rw [ends]
      rfl

/-- The regions that are met from a line on stand there or later, among the lines. -/
theorem bounds_of_mem_met (action : Text) (lines : List Text) (start : Nat) :
    ∀ region ∈ met action lines start, start ≤ region.openerLine ∧
      region.openerLine < lines.length ∧
      ∀ closer ∈ region.closerLine, region.openerLine < closer ∧ closer < lines.length := by
  fun_induction met action lines start with
  | case1 start absent => simp
  | case2 start region found unclosed =>
    obtain ⟨before, opening, after, whole, _, _, _, place, _⟩ := exists_of_find found
    have size := congrArg List.length whole
    simp only [List.length_append, List.length_cons, List.length_drop] at size
    rw [List.forall_mem_singleton, unclosed]
    exact ⟨by omega, by omega, by simp⟩
  | case3 start region found closer ends inductionHypothesis =>
    obtain ⟨before, _, _, _, _, _, _, _, place, stop, _⟩ := exists_of_closed found ends
    have bounds := closer_bounds found ends
    rw [List.forall_mem_cons, ends]
    refine ⟨⟨by omega, by omega, ?_⟩, ?_⟩
    · rintro _ ⟨rfl⟩
      exact ⟨by omega, bounds.2⟩
    · intro other member
      obtain ⟨behind, within⟩ := inductionHypothesis other member
      exact ⟨by omega, within⟩

/-- The regions that are met stand one behind the other, and only the last may never close. -/
theorem pairwise_met (action : Text) (lines : List Text) (start : Nat) :
    (met action lines start).Pairwise fun earlier later =>
      ∃ closer ∈ earlier.closerLine, closer < later.openerLine := by
  fun_induction met action lines start with
  | case1 start absent => exact List.Pairwise.nil
  | case2 start region found unclosed => exact List.pairwise_singleton _ region
  | case3 start region found closer ends inductionHypothesis =>
    refine List.pairwise_cons.mpr ⟨fun later member => ⟨closer, ends, ?_⟩, inductionHypothesis⟩
    exact (bounds_of_mem_met action lines (closer + 1) later member).1

/-- What stands between the opener of a region and its closer stands at its inner numbers. -/
theorem filterMap_interior {α : Type} {items inside rest : List α}
    (parts : items.drop (region.openerLine + 1) = inside ++ rest)
    (ends : region.closerLine = some (region.openerLine + 1 + inside.length)) :
    (region.interior.filterMap fun number => items[number]?) = inside := by
  rw [interior, ends]
  simp only [Nat.add_sub_cancel_left]
  exact filterMap_range'_eq items inside rest _ parts

/-- The regions that close are the regions at which lines are cut, with the same openers and the
    same hidden lines. -/
theorem regions_ofLines_eq_met (action : Text) (lines : List Text) (start : Nat) :
    ((Layout.ofLines action (lines.drop start)).regions.map fun region =>
        (region.opener, region.interior)) =
      ((met action lines start).filter (·.closerLine.isSome)).map fun region =>
        (region.opener, region.interior.filterMap fun number => lines[number]?) := by
  fun_induction met action lines start with
  | case1 start absent =>
    have first := (first?_eq_none_iff action lines start).mpr (by simp [absent])
    rw [Layout.ofLines_of_none first]
    rfl
  | case2 start region found unclosed =>
    have first := (first?_eq_none_iff action lines start).mpr (by simp [found, unclosed])
    rw [Layout.ofLines_of_none first, List.filter_cons_of_neg (by simp [unclosed])]
    rfl
  | case3 start region found closer ends inductionHypothesis =>
    obtain ⟨before, opening, interior, closing, whole, behind, opens, plain, _, stop, closes⟩ :=
      exists_of_closed found ends
    have first := Region.first?_of_closed before _ opening region.opener _ plain opens closes
    have inside := filterMap_interior behind (by rw [ends, stop])
    rw [← whole] at first
    rw [Layout.ofLines_of_first first, List.filter_cons_of_pos (by simp [ends]), List.map_cons,
      List.map_cons, inductionHypothesis, inside]

/-- Blank lines at the end change no region. -/
theorem find?_append_blanks (blank : ∀ line ∈ blanks, line.strip = []) (start : Nat) :
    find? action (lines ++ blanks) start = find? action lines start := by
  have plain : ∀ line ∈ blanks.drop (start - lines.length),
      BlockStart.acting? action line = none := by
    intro line member
    apply BlockStart.acting?_eq_none_of_unopened action
    exact (not_marked_of_strip_eq_nil (blank line (List.mem_of_mem_drop member))).1
  have unclosing : ∀ line ∈ blanks.drop (start - lines.length), isBlockCloser line = false := by
    intro line member
    exact (not_marked_of_strip_eq_nil (blank line (List.mem_of_mem_drop member))).2
  rw [find?, find?, List.drop_append, BlockStart.find?_append_plain _ _ plain, Option.map_map]
  congr 1
  funext opened
  cases closes : ClosedBlock.ofLines? 0 opened.after with
  | none =>
    have never := ClosedBlock.ofLines?_append_none _ closes unclosing
    simp [never]
  | some block =>
    have still := ClosedBlock.ofLines?_append_some closes (blanks.drop (start - lines.length))
    simp [still]

/-- Blank lines at the end add no region and close none. -/
theorem met_append_blanks (blank : ∀ line ∈ blanks, line.strip = []) (start : Nat) :
    met action (lines ++ blanks) start = met action lines start := by
  fun_induction met action lines start with
  | case1 start absent =>
    exact met_of_absent ((find?_append_blanks blank start).trans absent)
  | case2 start region found unclosed =>
    rw [met_of_found ((find?_append_blanks blank start).trans found), unclosed]
    rfl
  | case3 start region found closer ends inductionHypothesis =>
    rw [met_of_found ((find?_append_blanks blank start).trans found), ends, Option.map_some,
      inductionHypothesis]
    rfl

end Met

end BlockRegion

namespace BlockScan

/-! ## Stretches of the scan -/

section Stretches

variable (settings : Settings) {lines : List Text} {start : Nat} {region : BlockRegion}

/-- Lines that open no block of the configured action stay in their places. -/
theorem feedAll_before (before rest : List Text) (single : ∀ line ∈ before, '\n' ∉ line)
    (plain : ∀ line ∈ before, BlockStart.acting? settings.directiveAction line = none) :
    feedAll settings scanning ((before ++ rest).map lineUnit) =
      ((before.map lineUnit).map .unchanged ++ (feedAll settings scanning (rest.map lineUnit)).1,
        (feedAll settings scanning (rest.map lineUnit)).2) := by
  induction before with
  | nil => rfl
  | cons line others inductionHypothesis =>
    obtain ⟨first, singles⟩ := List.forall_mem_cons.mp single
    obtain ⟨unopened, plains⟩ := List.forall_mem_cons.mp plain
    rw [List.cons_append, feedAll_plain settings line _ first unopened,
      inductionHypothesis singles plains]
    rfl

variable (single : ∀ line ∈ lines, '\n' ∉ line)

include single

/-- Without a region, all units stay in their places. -/
theorem feedAll_of_absent
    (absent : BlockRegion.find? settings.directiveAction lines start = none) :
    feedAll settings scanning ((lines.drop start).map lineUnit) =
      (((lines.drop start).map lineUnit).map .unchanged, scanning) := by
  have plain := (BlockStart.find?_eq_none_iff _).mp (Option.map_eq_none_iff.mp absent)
  have fed := feedAll_before settings (lines.drop start) []
    (fun line member => single line (List.mem_of_mem_drop member)) plain
  rw [List.append_nil] at fed
  rw [fed]
  simp [feedAll]

/-- A region that never closes takes its opener and every unit after it, and they are held. -/
theorem feedAll_of_unclosed
    (found : BlockRegion.find? settings.directiveAction lines start = some region)
    (unclosed : region.closerLine = none) :
    ∃ before opening depth marker,
      (lines.drop start).map lineUnit =
        before ++ opening :: (lines.map lineUnit).drop (region.openerLine + 1) ∧
      region.openerLine = start + before.length ∧
      feedAll settings scanning ((lines.drop start).map lineUnit) =
        (before.map .unchanged ++
          (opening :: (lines.map lineUnit).drop (region.openerLine + 1)).map fun _ => .removed,
          collecting depth region.opener.blob marker
            ((lines.map lineUnit).drop (region.openerLine + 1))) := by
  obtain ⟨before, opening, after, whole, behind, opens, plain, place, closes⟩ :=
    BlockRegion.exists_of_find found
  have never : ClosedBlock.ofLines? 0 after = none := by
    rw [unclosed] at closes
    exact Option.map_eq_none_iff.mp closes.symm
  have singles : ∀ line ∈ before ++ opening :: after, '\n' ∉ line := by
    intro line member
    rw [← whole] at member
    exact single line (List.mem_of_mem_drop member)
  obtain ⟨singleBefore, singleAfter⟩ := List.forall_mem_append.mp singles
  have held : (lines.map lineUnit).drop (region.openerLine + 1) = after.map lineUnit := by
    rw [← List.map_drop, behind]
  refine ⟨before.map lineUnit, lineUnit opening, (1 + unitsLevel (after.map lineUnit)).toNat,
    .paragraph [.ofText opening.stripEnd], ?_, by rw [place, List.length_map], ?_⟩
  · rw [whole, held, List.map_append, List.map_cons]
  · rw [whole, held, feedAll_before settings before _ singleBefore plain,
      feedAll_unclosed settings opening after singleAfter region.opener opens never]
    simp only [List.map_cons, List.map_map]
    rfl

/-- A region that closes takes its units up to the closer and yields one hidden block there, and
    the scan goes on behind it as at its start. -/
theorem feedAll_of_closed {closer : Nat}
    (found : BlockRegion.find? settings.directiveAction lines start = some region)
    (ends : region.closerLine = some closer) :
    ∃ before opening closing,
      let inside := region.interior.filterMap fun number => (lines.map lineUnit)[number]?
      let after := (lines.drop (closer + 1)).map lineUnit
      (lines.drop start).map lineUnit = before ++ ((opening :: inside) ++ closing :: after) ∧
      region.openerLine = start + before.length ∧
      closer = region.openerLine + (opening :: inside).length ∧
      feedAll settings scanning ((lines.drop start).map lineUnit) =
        (before.map .unchanged ++ ((opening :: inside).map (fun _ => .removed) ++
          .replaced [hiddenBlock settings region.opener.blob inside] ::
            (feedAll settings scanning after).1),
          (feedAll settings scanning after).2) := by
  obtain ⟨before, opening, interior, closing, whole, behind, opens, plain, place, stop, closes⟩ :=
    BlockRegion.exists_of_closed found ends
  have singles : ∀ line ∈ before ++ opening :: (interior ++ closing :: lines.drop (closer + 1)),
      '\n' ∉ line := by
    intro line member
    rw [← whole] at member
    exact single line (List.mem_of_mem_drop member)
  obtain ⟨singleBefore, singleAfter⟩ := List.forall_mem_append.mp singles
  have hidden : (region.interior.filterMap fun number => (lines.map lineUnit)[number]?) =
      interior.map lineUnit := by
    apply BlockRegion.filterMap_interior
    · rw [← List.map_drop, behind, List.map_append]
    · rw [ends, List.length_map, stop]
  refine ⟨before.map lineUnit, lineUnit opening, lineUnit closing, ?_⟩
  simp only [hidden]
  refine ⟨?_, by rw [place, List.length_map], ?_, ?_⟩
  · rw [whole, List.map_append, List.map_cons, List.map_append, List.map_cons]
    rfl
  · rw [List.length_cons, List.length_map]
    omega
  · rw [whole, feedAll_before settings before _ singleBefore plain,
      feedAll_closed settings opening _ singleAfter region.opener opens _ closes]
    simp only [List.map_cons, List.map_map]
    rfl

end Stretches

/-! ## The outcomes by line number -/

/-- How the unit of a line appears when the regions are given by line number: as it is outside of
    them, as a hidden block around the units of the hidden lines at a closer, and not at all on
    the other lines of a region. -/
def outcomeAt (settings : Settings) (units : List Node) (regions : List BlockRegion) :
    Node × Nat → Resolution
  | (unit, number) =>
    match regions.find? (·.covers number) with
    | none => .unchanged unit
    | some region =>
      if region.closerLine = some number then
        .replaced [hiddenBlock settings region.opener.blob
          (region.interior.filterMap fun inside => units[inside]?)]
      else .removed

section OutcomeAt

variable (settings : Settings) (units : List Node) {region : BlockRegion}
  {regions : List BlockRegion} {number : Nat}

/-- A line that the first region covers is taken out, and the closer is replaced by the hidden
    block. -/
theorem outcomeAt_covered (unit : Node) (covered : region.covers number = true) :
    outcomeAt settings units (region :: regions) (unit, number) =
      if region.closerLine = some number then
        .replaced [hiddenBlock settings region.opener.blob
          (region.interior.filterMap fun inside => units[inside]?)]
      else .removed := by
  simp only [outcomeAt, List.find?_cons, covered]

/-- The lines before the regions stay in their places. -/
theorem outcomeAt_before (before : List Node) (start : Nat)
    (ahead : ∀ region ∈ regions, start + before.length ≤ region.openerLine) :
    (before.zipIdx start).map (outcomeAt settings units regions) = before.map .unchanged := by
  apply map_zipIdx_eq_map
  intro unit number _ inside
  have uncovered : regions.find? (·.covers number) = none := by
    apply BlockRegion.find?_covers_eq_none
    intro region member
    have later := ahead region member
    omega
  simp only [outcomeAt, uncovered]

/-- The lines of a region before its closer do not appear. -/
theorem outcomeAt_within (inside : List Node) (start : Nat) (opened : region.openerLine ≤ start)
    (unclosed : ∀ closer ∈ region.closerLine, start + inside.length ≤ closer) :
    (inside.zipIdx start).map (outcomeAt settings units (region :: regions)) =
      inside.map fun _ => .removed := by
  apply map_zipIdx_eq_map
  intro unit number behind ahead
  have covered : region.covers number = true := by
    rw [BlockRegion.covers_iff]
    refine ⟨Nat.le_trans opened behind, ?_⟩
    intro closer ends
    have later := unclosed closer ends
    omega
  rw [outcomeAt_covered settings units unit covered, if_neg]
  intro ends
  have later := unclosed number ends
  omega

/-- The lines behind a region appear as the other regions say. -/
theorem outcomeAt_behind (after : List Node) (closer : Nat)
    (ends : region.closerLine = some closer) :
    (after.zipIdx (closer + 1)).map (outcomeAt settings units (region :: regions)) =
      (after.zipIdx (closer + 1)).map (outcomeAt settings units regions) := by
  apply List.map_congr_left
  rintro ⟨unit, number⟩ member
  have behind := List.le_snd_of_mem_zipIdx member
  simp only [outcomeAt, BlockRegion.find?_covers_behind ends behind]

end OutcomeAt

/-- From any line on, the units of lines appear as the regions say that are met from there. -/
theorem feedAll_eq_outcomeAt (settings : Settings) (lines : List Text)
    (single : ∀ line ∈ lines, '\n' ∉ line) (start : Nat) :
    (feedAll settings scanning ((lines.drop start).map lineUnit)).1 =
      (((lines.drop start).map lineUnit).zipIdx start).map
        (outcomeAt settings (lines.map lineUnit)
          (BlockRegion.met settings.directiveAction lines start)) := by
  fun_induction BlockRegion.met settings.directiveAction lines start with
  | case1 start absent =>
    rw [feedAll_of_absent settings single absent, outcomeAt_before _ _ _ _ (by simp)]
  | case2 start region found unclosed =>
    obtain ⟨before, opening, _, _, parts, place, fed⟩ :=
      feedAll_of_unclosed settings single found unclosed
    rw [fed, parts, List.zipIdx_append, List.map_append,
      outcomeAt_before _ _ _ _ (by simp [place]),
      outcomeAt_within _ _ _ _ (by simp [place]) (by simp [unclosed])]
  | case3 start region found closer ends inductionHypothesis =>
    obtain ⟨before, opening, closing, parts, place, stop, fed⟩ :=
      feedAll_of_closed settings single found ends
    -- no region covers the lines before this one, and behind its closer only the others count
    have ahead : ∀ other ∈ region :: BlockRegion.met settings.directiveAction lines (closer + 1),
        start + before.length ≤ other.openerLine := by
      rw [List.forall_mem_cons, place]
      refine ⟨Nat.le_refl _, fun other member => ?_⟩
      have behind := (BlockRegion.bounds_of_mem_met _ lines _ other member).1
      omega
    have covered : region.covers closer = true := by
      simp [BlockRegion.covers, ends, (by omega : region.openerLine ≤ closer)]
    have shown := outcomeAt_before settings (lines.map lineUnit) before start ahead
    rw [fed, inductionHypothesis, parts, List.zipIdx_append, List.map_append, shown,
      List.zipIdx_append, List.map_append, ← place,
      outcomeAt_within _ _ _ _ (Nat.le_refl _) (by simp [ends, stop]), ← stop, List.zipIdx_cons]
    simp only [List.map_cons, outcomeAt_covered settings _ _ covered, if_pos ends,
      outcomeAt_behind settings _ _ closer ends]

/-! ## The state behind a note -/

/-- Behind the units of lines, a scan is outside any block, unless a region never closes: then it is
    inside the block of that opener, with the units after it. -/
def IsLeftBy (units : List Node) (regions : List BlockRegion) (last : BlockScan) : Prop :=
  match regions.find? (·.closerLine.isNone) with
  | none => last = scanning
  | some region =>
    last.isCollecting = true ∧ last.blob = region.opener.blob ∧
      last.units = units.drop (region.openerLine + 1)

/-- Behind the units of lines, the scan is in the block of the region that never closes, or in none.
    -/
theorem isLeftBy_feedAll (settings : Settings) (lines : List Text)
    (single : ∀ line ∈ lines, '\n' ∉ line) (start : Nat) :
    IsLeftBy (lines.map lineUnit) (BlockRegion.met settings.directiveAction lines start)
      (feedAll settings scanning ((lines.drop start).map lineUnit)).2 := by
  fun_induction BlockRegion.met settings.directiveAction lines start with
  | case1 start absent =>
    rw [feedAll_of_absent settings single absent]
    rfl
  | case2 start region found unclosed =>
    obtain ⟨_, _, _, _, _, _, fed⟩ := feedAll_of_unclosed settings single found unclosed
    rw [fed]
    simp only [IsLeftBy, List.find?_cons, unclosed, Option.isNone_none]
    exact ⟨rfl, rfl, rfl⟩
  | case3 start region found closer ends inductionHypothesis =>
    obtain ⟨_, _, _, _, _, _, fed⟩ := feedAll_of_closed settings single found ends
    rw [fed]
    simp only [IsLeftBy, List.find?_cons, ends, Option.isNone_some]
    exact inductionHypothesis

/-- The scan over the units of a note finds the regions of its lines. Those that close are the ones
    at which encoding cuts the note; they stand among the units, one behind the other; every unit
    appears as they say; and the scan ends inside a block exactly when the last of them never
    closes.

    Proof: blank lines at the end make no unit and no region. For the other lines the induction
    follows the regions: the scan takes the lines before a region, then the region itself, and is
    outside behind its closer. -/
theorem feedAll_segment (settings : Settings) (text : Text) :
    let regions := BlockRegion.met settings.directiveAction text.lines 0
    let units := segment text
    let fed := feedAll settings scanning units
    ((Layout.ofLines settings.directiveAction text.lines).regions.map fun region =>
        (region.opener, region.interior)) =
      ((regions.filter (·.closerLine.isSome)).map fun region =>
        (region.opener, region.interior.filterMap fun number => text.lines[number]?)) ∧
    (∀ region ∈ regions, region.openerLine < units.length ∧
      ∀ closer ∈ region.closerLine, region.openerLine < closer ∧ closer < units.length) ∧
    (regions.Pairwise fun earlier later =>
      ∃ closer ∈ earlier.closerLine, closer < later.openerLine) ∧
    fed.1 = units.zipIdx.map (outcomeAt settings units regions) ∧
    IsLeftBy units regions fed.2 := by
  obtain ⟨lines, blanks, whole, blank, segmented⟩ := exists_segment text
  have single : ∀ line ∈ lines, '\n' ∉ line := by
    intro line member
    apply Text.lineFeed_not_mem_lines text line
    simp [whole, member]
  have same : BlockRegion.met settings.directiveAction text.lines 0 =
      BlockRegion.met settings.directiveAction lines 0 := by
    rw [whole, BlockRegion.met_append_blanks blank]
  refine ⟨BlockRegion.regions_ofLines_eq_met _ text.lines 0, ?_,
    BlockRegion.pairwise_met _ text.lines 0, ?_, ?_⟩
  · rw [same, segmented, List.length_map]
    intro region member
    exact (BlockRegion.bounds_of_mem_met _ lines 0 region member).2
  · rw [same, segmented]
    exact feedAll_eq_outcomeAt settings lines single 0
  · rw [same, segmented]
    exact isLeftBy_feedAll settings lines single 0

end BlockScan

end HiddenContent
