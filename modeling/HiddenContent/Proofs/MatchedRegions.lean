import HiddenContent.Proofs.BalancedLines
import Mathlib.Order.Bounds.Basic

/-!
# Regions are matched brackets

The search for a region goes from line to line and keeps the number of open levels. The law names no
such number. A region begins at the first opener of its action. It ends at the first line up to
which the closers behind its opener are one more than the openers, whatever their actions, and it
never closes when there is no such line.

So regions are well nested. Between an opener and its closer no beginning of the lines closes more
than it opens. An inner opener takes one level more, and the lines from there on, which close
everything, have to close that level before the last line.
-/

namespace HiddenContent

/-! ## Counting openers and closers -/

/-- The opener that stands on the line of a number. -/
def BlockOpener.at? (lines : List Text) (number : Nat) : Option BlockOpener :=
  lines[number]?.bind ofLine?

/-- The number of lines that open a block of any action. -/
def openerCount (lines : List Text) : Nat :=
  lines.countP fun line => (BlockOpener.ofLine? line).isSome

/-- The number of lines that close a block. -/
def closerCount (lines : List Text) : Nat := lines.countP isBlockCloser

/-- The level of lines is the number of their openers less that of their closers. -/
theorem levelOf_eq_counts (lines : List Text) :
    levelOf lines = (openerCount lines : Int) - closerCount lines := by
  induction lines with
  | nil => rfl
  | cons line rest inductionHypothesis =>
    rw [levelOf_cons, inductionHypothesis, levelChange, openerCount, closerCount, openerCount,
      closerCount, List.countP_cons, List.countP_cons]
    by_cases closes : isBlockCloser line = true
    · simp only [BlockOpener.ofLine?_of_closer closes, closes, Option.isSome_none]
      simp
      omega
    · cases opens : (BlockOpener.ofLine? line).isSome with
      | true =>
        simp [closes]
        omega
      | false => simp [closes]

/-- Lines that begin with more closers than openers close the outer level there or before. -/
theorem ClosedBlock.exists_of_level_neg {lines first : List Text} (begins : first <+: lines)
    (negative : levelOf first < 0) :
    ∃ block, ofLines? 0 lines = some block ∧ block.interior.length < first.length := by
  cases found : ofLines? 0 lines with
  | none =>
    have covered := levels_of_none found first ((List.mem_inits _ _).mpr begins)
    omega
  | some block =>
    refine ⟨block, rfl, ?_⟩
    by_contra long
    obtain ⟨closing, whole, _⟩ := exists_of_ofLines found
    have within : block.interior <+: lines := ⟨closing :: block.after, whole.symm⟩
    have inside := List.prefix_of_prefix_length_le begins within (by omega)
    have covered := (balanced_interior found).covered first ((List.mem_inits _ _).mpr inside)
    omega

/-- Behind an opener among balanced lines, more levels are closed than opened. -/
theorem BalancedLines.level_behind_neg {first last : List Text} {line : Text}
    (balanced : BalancedLines (first ++ line :: last))
    (opens : (BlockOpener.ofLine? line).isSome = true) : levelOf last < 0 := by
  have early := balanced.covered first ((List.mem_inits _ _).mpr (List.prefix_append _ _))
  have settled := balanced.settled
  rw [levelOf_append, levelOf_cons, levelChange, if_pos opens] at settled
  omega

namespace BlockRegion

/-- The line of a number opens a block of an action. -/
def OpensAt (action : Text) (lines : List Text) (number : Nat) : Prop :=
  (BlockOpener.at? lines number).map BlockOpener.action = some action

instance (action : Text) (lines : List Text) (number : Nat) :
    Decidable (OpensAt action lines number) := inferInstanceAs (Decidable (_ = _))

/-- The lines behind the line `opener`, up to and with the line `last`. -/
def behind (lines : List Text) (opener last : Nat) : List Text :=
  (lines.drop (opener + 1)).take (last - opener)

/-- Up to the line `last`, the closers behind the line `opener` are one more than the openers. -/
structure EndsLevel (lines : List Text) (opener last : Nat) : Prop where
  after : opener < last
  among : last < lines.length
  exceeds : closerCount (behind lines opener last) = openerCount (behind lines opener last) + 1

variable {action : Text} {lines : List Text} {start : Nat} {region : BlockRegion}

/-! ## The first opener -/

/-- A line number opens a block of an action when an opener line of that action stands there. -/
theorem opensAt_iff (number : Nat) :
    OpensAt action lines number ↔
      ∃ line, lines[number]? = some line ∧ (BlockStart.acting? action line).isSome = true := by
  rw [OpensAt, BlockOpener.at?, Option.map_bind, Option.bind_eq_some_iff]
  simp only [BlockStart.acting?_isSome_iff, Function.comp_apply]

/-- The line of such a number opens a block. -/
theorem isSome_of_opensAt {number : Nat} {line : Text} (opens : OpensAt action lines number)
    (here : lines[number]? = some line) : (BlockOpener.ofLine? line).isSome = true := by
  rw [OpensAt, BlockOpener.at?, here, Option.bind_some] at opens
  obtain ⟨opener, read, _⟩ := Option.map_eq_some_iff.mp opens
  rw [read, Option.isSome_some]

/-- No region is found exactly when no line opens a block of the action. -/
theorem find?_eq_none_iff :
    find? action lines start = none ↔
      ∀ number, start ≤ number → ¬OpensAt action lines number := by
  rw [find?, Option.map_eq_none_iff, BlockStart.find?_eq_none_iff]
  simp only [opensAt_iff, not_exists, not_and]
  constructor
  · intro plain number after line here opens
    have member : line ∈ lines.drop start := by
      rw [List.mem_iff_getElem?]
      exact ⟨number - start, by rw [List.getElem?_drop, Nat.add_sub_cancel' after, here]⟩
    rw [plain line member] at opens
    exact absurd opens (by simp)
  · intro unopened line member
    obtain ⟨number, here⟩ := List.mem_iff_getElem?.mp member
    rw [List.getElem?_drop] at here
    have refused := unopened (start + number) (Nat.le_add_right _ _) line here
    simpa using refused

/-- A region that is found begins at the first line that opens a block of the action. -/
theorem isLeast_openerLine (found : find? action lines start = some region) :
    IsLeast {number | start ≤ number ∧ OpensAt action lines number} region.openerLine ∧
      BlockOpener.at? lines region.openerLine = some region.opener := by
  obtain ⟨before, opening, after, whole, _, opens, plain, place, _⟩ := exists_of_find found
  have stands (number : Nat) : lines[start + number]? = (before ++ opening :: after)[number]? := by
    rw [← whole, List.getElem?_drop]
  have here : lines[region.openerLine]? = some opening := by
    rw [place, stands]
    simp
  refine ⟨⟨⟨by omega, (opensAt_iff _).mpr ⟨opening, here, by rw [opens, Option.isSome_some]⟩⟩, ?_⟩,
    ?_⟩
  · rintro number ⟨later, opensThere⟩
    by_contra early
    obtain ⟨line, there, opensLine⟩ := (opensAt_iff number).mp opensThere
    rw [← Nat.add_sub_cancel' later, stands, List.getElem?_append_left (by omega)] at there
    rw [plain line (List.mem_of_getElem? there)] at opensLine
    exact absurd opensLine (by simp)
  · rw [BlockOpener.at?, here, Option.bind_some]
    exact ((BlockStart.acting?_eq_some_iff _ _ _).mp opens).1

/-! ## The first closer -/

/-- A region closes no later than at the end of any lines behind its opener that close more than
    they open. -/
theorem exists_closer_of_level_neg (found : find? action lines start = some region)
    {first : List Text} (begins : first <+: lines.drop (region.openerLine + 1))
    (negative : levelOf first < 0) :
    ∃ closer, region.closerLine = some closer ∧ closer ≤ region.openerLine + first.length := by
  obtain ⟨_, _, after, _, behind, _, _, _, closes⟩ := exists_of_find found
  rw [behind] at begins
  obtain ⟨block, closed, shorter⟩ := ClosedBlock.exists_of_level_neg begins negative
  rw [closed, Option.map_some] at closes
  exact ⟨_, closes, by omega⟩

/-- The closer of a region ends the level of its opener. -/
theorem endsLevel_of_closer {closer : Nat} (found : find? action lines start = some region)
    (ends : region.closerLine = some closer) : EndsLevel lines region.openerLine closer := by
  obtain ⟨_, _, interior, closing, _, after, _, _, _, stop, closed⟩ := exists_of_closed found ends
  have closes : isBlockCloser closing = true := by
    obtain ⟨last, same, closes⟩ := ClosedBlock.exists_of_ofLines closed
    rw [List.append_cancel_left_eq, List.cons.injEq] at same
    rw [same.1, closes]
  have taken : behind lines region.openerLine closer = interior ++ [closing] := by
    rw [behind, after, List.append_cons]
    apply List.take_left'
    rw [List.length_append, List.length_singleton]
    omega
  have level := levelOf_eq_counts (behind lines region.openerLine closer)
  rw [taken, levelOf_append, levelOf_cons, levelOf_nil, levelChange,
    BlockOpener.ofLine?_of_closer closes] at level
  have settled := (ClosedBlock.balanced_interior closed).settled
  simp only [closes, Option.isSome_none, if_true, Bool.false_eq_true, if_false] at level settled
  refine ⟨by omega, (closer_bounds found ends).2, ?_⟩
  rw [taken]
  omega

/-- A region closes no later than where the level of its opener ends. -/
theorem EndsLevel.exists_closer {number : Nat} (found : find? action lines start = some region)
    (ends : EndsLevel lines region.openerLine number) :
    ∃ closer, region.closerLine = some closer ∧ closer ≤ number := by
  have negative : levelOf (behind lines region.openerLine number) < 0 := by
    rw [levelOf_eq_counts, ends.exceeds]
    omega
  have begins : behind lines region.openerLine number <+: lines.drop (region.openerLine + 1) :=
    List.take_prefix _ _
  obtain ⟨closer, same, before⟩ := exists_closer_of_level_neg found begins negative
  have taken : (behind lines region.openerLine number).length ≤ number - region.openerLine :=
    List.length_take_le _ _
  have later := ends.after
  exact ⟨closer, same, by omega⟩

/-- An opener inside a region has its closer there, too. -/
theorem exists_nested {closer inner : Nat} (found : find? action lines start = some region)
    (ends : region.closerLine = some closer) (after : region.openerLine < inner)
    (before : inner < closer) (opens : OpensAt action lines inner) :
    ∃ nested, find? action lines inner = some nested ∧ nested.openerLine = inner ∧
      ∃ stop, nested.closerLine = some stop ∧ stop < closer := by
  cases search : find? action lines inner with
  | none => exact absurd opens (find?_eq_none_iff.mp search inner (Nat.le_refl inner))
  | some nested =>
    obtain ⟨⟨⟨later, _⟩, least⟩, _⟩ := isLeast_openerLine search
    have same : nested.openerLine = inner :=
      Nat.le_antisymm (least ⟨Nat.le_refl inner, opens⟩) later
    obtain ⟨_, _, interior, closing, _, whole, _, _, _, stop, closed⟩ := exists_of_closed found ends
    -- `skip` lines of the region stand before the inner opener
    obtain ⟨skip, rfl⟩ := Nat.exists_eq_add_of_lt after
    have short : skip < interior.length := by omega
    have parts : interior = interior.take skip ++ interior[skip] :: interior.drop (skip + 1) := by
      rw [List.getElem_cons_drop, List.take_append_drop]
    have here : lines[region.openerLine + skip + 1]? = some interior[skip] := by
      rw [Nat.add_right_comm, ← List.getElem?_drop, whole, List.getElem?_append_left short,
        List.getElem?_eq_getElem short]
    have inside := ClosedBlock.balanced_interior closed
    rw [parts] at inside
    have negative := inside.level_behind_neg (isSome_of_opensAt opens here)
    have begins : interior.drop (skip + 1) <+: lines.drop (nested.openerLine + 1) := by
      have rest := congrArg (List.drop (skip + 1)) whole
      rw [List.drop_drop, List.drop_append_of_le_length short] at rest
      rw [same, show region.openerLine + skip + 1 + 1 = region.openerLine + 1 + (skip + 1) by omega,
        rest]
      exact List.prefix_append _ _
    obtain ⟨last, closes, bound⟩ := exists_closer_of_level_neg search begins negative
    rw [List.length_drop, same] at bound
    exact ⟨nested, rfl, same, last, closes, by omega⟩

/-- Searching a region is matching brackets. None is found exactly when no line from the first one
    searched on opens a block of the action. Otherwise the region begins at the first of these
    lines, with the opener that stands there, and it closes at the first line that ends the level of
    this opener; it never closes when no line does. Each line inside a closed region that opens
    a block of the action begins a region that closes before the outer one.

    Proof: the levels of the lines tell where a block closes: its closer is the first line that ends
    the level of the opener. The lines behind an inner opener end its level too before they end the
    outer one. -/
theorem find?_matches_brackets (action : Text) (lines : List Text) (start : Nat) :
    (find? action lines start = none ↔
      ∀ number, start ≤ number → ¬OpensAt action lines number) ∧
    ∀ region, find? action lines start = some region →
      IsLeast {number | start ≤ number ∧ OpensAt action lines number} region.openerLine ∧
      BlockOpener.at? lines region.openerLine = some region.opener ∧
      (∀ closer, region.closerLine = some closer ↔
        IsLeast {number | EndsLevel lines region.openerLine number} closer) ∧
      (region.closerLine = none ↔ ∀ number, ¬EndsLevel lines region.openerLine number) ∧
      ∀ closer, region.closerLine = some closer → ∀ inner, region.openerLine < inner →
        inner < closer → OpensAt action lines inner →
          ∃ nested, find? action lines inner = some nested ∧ nested.openerLine = inner ∧
            ∃ stop, nested.closerLine = some stop ∧ stop < closer := by
  refine ⟨find?_eq_none_iff, fun region found => ?_⟩
  obtain ⟨first, opener⟩ := isLeast_openerLine found
  refine ⟨first, opener, fun closer => ⟨?_, ?_⟩, ⟨?_, ?_⟩,
    fun closer ends inner after before opens => exists_nested found ends after before opens⟩
  · intro ends
    refine ⟨endsLevel_of_closer found ends, fun number other => ?_⟩
    obtain ⟨same, closes, before⟩ := other.exists_closer found
    rw [ends, Option.some.injEq] at closes
    omega
  · rintro ⟨ends, least⟩
    obtain ⟨other, closes, before⟩ := EndsLevel.exists_closer found ends
    have after := least (endsLevel_of_closer found closes)
    rw [closes, Nat.le_antisymm before after]
  · intro unclosed number ends
    obtain ⟨closer, closes, _⟩ := ends.exists_closer found
    rw [unclosed] at closes
    exact absurd closes (by simp)
  · intro never
    cases ends : region.closerLine with
    | none => rfl
    | some closer => exact absurd (endsLevel_of_closer found ends) (never closer)

/-- A foreign block inside a region, a block of the action inside that one, and an opener behind
    them that stays open. -/
theorem find?_matches_brackets_inner :
    let lines := Text.lines
      ":::\n:::hide\n:::note\n :::hide\x7bk\x7d\n:::\n::: \nx\n:::\n:::hide".toList
    find? "hide".toList lines 0 = some ⟨⟨"hide".toList, []⟩, 1, some 7⟩ ∧
      ∃ nested, find? "hide".toList lines 3 = some nested ∧ nested.openerLine = 3 ∧
        ∃ stop, nested.closerLine = some stop ∧ stop < 7 := by
  intro lines
  have found : find? "hide".toList lines 0 = some ⟨⟨"hide".toList, []⟩, 1, some 7⟩ := by decide
  obtain ⟨_, _, _, _, nested⟩ := (find?_matches_brackets "hide".toList lines 0).2 _ found
  exact ⟨found, nested 7 rfl 3 (by decide) (by decide) (by decide)⟩

end BlockRegion

end HiddenContent
