import HiddenContent.Proofs.UnitLevels

/-!
# Every unit that a scan takes is accounted for

What a scan yields over a sequence, with the units of each block it makes in place of the block, and
then what it still holds, are the units it took, in their order. Of a unit that opens a block only
what stands before the opener is in this account, and of a unit that closes one only what stands
before the closer. The opener itself is not lost: a scan inside a block holds its marker, and every
unit after it.

The account of one step says that what the step shows and what the scan then holds is what the scan
held and what the unit brings. The account of a run follows by induction over the units.
-/

namespace HiddenContent

/-- A hidden block as what it owns, and any other node as itself. -/
def Node.unwrapped : Node → List Node
  | hiddenBlock _ _ children => children
  | element kind value children data => [element kind value children data]
  | hiddenInline attributes payload label => [hiddenInline attributes payload label]

namespace BlockScan

/-- One unit taken by a scan: the states around it, and how it appears. -/
structure Taken where
  before : BlockScan
  unit : Node
  outcome : Resolution
  after : BlockScan

/-- The units taken from a state on, one after the other. -/
def history (settings : Settings) : BlockScan → List Node → List Taken
  | _, [] => []
  | state, unit :: rest =>
    let (outcome, next) := feed settings state unit
    ⟨state, unit, outcome, next⟩ :: history settings next rest

namespace Taken

/-- The nodes that appear for a unit, with what a block owns in place of the block that was made
    at its closer. -/
def shown (taken : Taken) : List Node :=
  match taken.before, taken.after with
  | collecting _ _ _ _, scanning => taken.outcome.nodes.flatMap Node.unwrapped
  | _, _ => taken.outcome.nodes

/-- What a unit adds to the sequence: the part before its opener when it opens a block, the part
    before its closer when it closes one, and the unit itself otherwise. -/
def added (taken : Taken) : List Node :=
  match taken.before, taken.after with
  | scanning, collecting _ _ _ _ => ((openerUnit? taken.unit).bind OpenerUnit.leading).toList
  | collecting _ _ _ _, scanning => (closerUnit? taken.unit).join.toList
  | _, _ => [taken.unit]

end Taken

/-- A history has the outcomes of the scan. -/
theorem outcomes_history (settings : Settings) (state : BlockScan) (units : List Node) :
    (history settings state units).map Taken.outcome = (feedAll settings state units).1 := by
  induction units generalizing state with
  | nil => rfl
  | cons unit rest inductionHypothesis =>
    simp only [history, feedAll, List.map_cons, inductionHypothesis]

/-- What a step shows and what is held after it is what was held before and what the unit adds. -/
theorem Step.account {settings : Settings} {before after : BlockScan} {unit : Node}
    {outcome : Resolution} (step : Step settings before unit outcome after) :
    (Taken.mk before unit outcome after).shown ++ after.units =
      before.units ++ (Taken.mk before unit outcome after).added := by
  cases step with
  | outside plain => rfl
  | opening opens acts => simp [Taken.shown, Taken.added, BlockScan.units, opens]
  | deeper opens => rfl
  | within unopened unclosed => rfl
  | shallower unopened closes nested => rfl
  | closing unopened closes last =>
    simp [Taken.shown, Taken.added, BlockScan.units, Resolution.nodes, hiddenBlock,
      Node.unwrapped, closes]

/-- What a run shows and what is held after it is what was held before and what its units add. -/
theorem account_history (settings : Settings) (state : BlockScan) (units : List Node) :
    (history settings state units).flatMap Taken.shown ++ (feedAll settings state units).2.units =
      state.units ++ (history settings state units).flatMap Taken.added := by
  induction units generalizing state with
  | nil => simp [history, feedAll]
  | cons unit rest inductionHypothesis =>
    have first := (step_feed settings state unit).account
    have later := inductionHypothesis (feed settings state unit).2
    simp only [history, feedAll, List.flatMap_cons]
    rw [List.append_assoc, later, ← List.append_assoc, first, List.append_assoc]

/-! ## What a scan holds -/

/-- What a scan holds after units: nothing outside any block, and inside one the marker of an
    opener among the units, and all units after that opener. -/
inductive HoldsLast (settings : Settings) (taken : List Node) : BlockScan → Prop where
  | outside : HoldsLast settings taken scanning
  | inside {before units : List Node} {opening : Node} {found : OpenerUnit} {depth : Nat}
      (parts : taken = before ++ opening :: units)
      (idle : (feedAll settings scanning before).2 = scanning)
      (opens : openerUnit? opening = some found)
      (acts : settings.acts found.opener.action = true) :
      HoldsLast settings taken (collecting depth found.opener.blob found.marker units)

namespace HoldsLast

variable {settings : Settings} {taken : List Node}

/-- A unit that is collected comes after the units that are held. -/
theorem collected {depth : Nat} {blob : Text} {opener : Node} {units : List Node}
    (holds : HoldsLast settings taken (collecting depth blob opener units)) (unit : Node)
    (next : Nat) :
    HoldsLast settings (taken ++ [unit]) (collecting next blob opener (units ++ [unit])) := by
  cases holds with
  | inside parts idle opens acts => exact .inside (by simp [parts]) idle opens acts

/-- One more step keeps what a scan holds. -/
theorem step {state next : BlockScan} {unit : Node} {outcome : Resolution}
    (holds : HoldsLast settings taken state)
    (reached : (feedAll settings scanning taken).2 = state)
    (step : Step settings state unit outcome next) :
    HoldsLast settings (taken ++ [unit]) next := by
  cases step with
  | outside plain => exact .outside
  | opening opens acts => exact .inside rfl reached opens acts
  | deeper opens => exact holds.collected unit _
  | within unopened unclosed => exact holds.collected unit _
  | shallower unopened closes nested => exact holds.collected unit _
  | closing unopened closes last => exact .outside

end HoldsLast

/-- After any sequence the scan holds the last units taken since its opener. -/
theorem holdsLast_feedAll (settings : Settings) (units : List Node) :
    HoldsLast settings units (feedAll settings scanning units).2 := by
  induction units using List.reverseRecOn with
  | nil => exact .outside
  | append_singleton taken unit inductionHypothesis =>
    rw [feedAll_append]
    exact inductionHypothesis.step rfl (step_feed settings _ unit)

/-- A scan loses no unit, yields none twice and keeps their order. At the end it gives back the
    marker of the opener of a block that did not close, and every unit after that opener.

    Proof: the account of one step, and from it, by induction over the units, the account of a run.
    What a scan still holds is found by the same induction. -/
theorem feedAll_conserves (settings : Settings) (units : List Node) :
    let taken := history settings scanning units
    let last := (feedAll settings scanning units).2
    taken.map Taken.outcome = (feedAll settings scanning units).1 ∧
      taken.flatMap Taken.shown ++ last.units = taken.flatMap Taken.added ∧
      (last.isCollecting = false ∧ last.release.1 = [] ∨
        last.isCollecting = true ∧ ∃ before opening found,
          units = before ++ opening :: last.units ∧ openerUnit? opening = some found ∧
            last.marker? = some found.marker ∧
            last.release.1 = found.marker :: last.units) := by
  refine ⟨outcomes_history settings scanning units, ?_, ?_⟩
  · simpa [BlockScan.units] using account_history settings scanning units
  · have holds := holdsLast_feedAll settings units
    generalize (feedAll settings scanning units).2 = last at holds
    cases holds with
    | outside => exact Or.inl ⟨rfl, rfl⟩
    | inside parts idle opens acts => exact Or.inr ⟨rfl, _, _, _, parts, opens, rfl, rfl⟩

end BlockScan

end HiddenContent
