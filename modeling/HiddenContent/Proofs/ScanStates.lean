import HiddenContent.BlockScan.Fields
import HiddenContent.Proofs.OpenerMarkers
import HiddenContent.Proofs.UnitLevels

/-!
# The states that a scan can reach

A scan may be asked to take a unit, to end the sequence, or to forget what it has in progress, in
any order. Whatever it is asked, its five fields are those of a scan in one of its two states, and
it is idle or inside a block. Idle, it holds nothing. Inside a block, the marker that it holds is
read as the opener of that block and as nothing else, the attributes are those of the marker, and
the depth is one more than the levels that the accumulated units leave open, which no beginning of
them closes.
-/

namespace HiddenContent

namespace BlockScan

/-- What a scan may be asked. -/
inductive Command where
  | feed (unit : Node)
  | finish
  | reset

/-- The state after a command. -/
def perform (settings : Settings) (state : BlockScan) : Command → BlockScan
  | .feed unit => (feed settings state unit).2
  | .finish => state.release.2
  | .reset => scanning

/-- The state after several commands. -/
def performAll (settings : Settings) (state : BlockScan) (commands : List Command) : BlockScan :=
  commands.foldl (perform settings) state

namespace Fields

/-- The fields after a command. -/
def perform (settings : Settings) (fields : Fields) : Command → Fields
  | .feed unit => (fields.feed settings unit).2
  | .finish => fields.finish.2
  | .reset => fields.reset

/-- The fields after several commands. -/
def performAll (settings : Settings) (fields : Fields) (commands : List Command) : Fields :=
  commands.foldl (perform settings) fields

/-- The fields of a scan outside any block, which holds nothing. -/
structure IsIdle (fields : Fields) : Prop where
  phase : fields.phase = .scanning
  depth : fields.depth = 0
  blob : fields.blob = []
  opener : fields.opener = none
  accumulator : fields.accumulator = []

/-- The fields of a scan inside a block of the configured action. -/
structure IsInside (settings : Settings) (fields : Fields) : Prop where
  phase : fields.phase = .collecting
  opener : ∃ node, fields.opener = some node ∧
    openerUnit? node = some ⟨⟨settings.directiveAction, fields.blob⟩, none, node⟩
  depth : (fields.depth : Int) = 1 + unitsLevel fields.accumulator
  covered : CoveredUnits fields.accumulator

/-- Fields that are set back are idle, whatever they were. -/
theorem isIdle_reset (fields : Fields) : fields.reset.IsIdle := ⟨rfl, rfl, rfl, rfl, rfl⟩

end Fields

/-- A command changes the fields as it changes the state. -/
theorem perform_fields (settings : Settings) (state : BlockScan) (command : Command) :
    state.fields.perform settings command = (perform settings state command).fields := by
  cases command with
  | feed unit => rw [Fields.perform, feed_fields, perform]
  | finish => rw [Fields.perform, finish_fields, perform]
  | reset => rw [Fields.perform, reset_fields, perform]

/-- Commands change the fields as they change the state. -/
theorem performAll_fields (settings : Settings) (state : BlockScan) (commands : List Command) :
    state.fields.performAll settings commands = (performAll settings state commands).fields := by
  induction commands generalizing state with
  | nil => rfl
  | cons command rest inductionHypothesis =>
    have later := inductionHypothesis (perform settings state command)
    rw [← perform_fields] at later
    exact later

/-- The two states of a scan, seen at its fields: idle, or inside a block. -/
def IsSound (settings : Settings) (state : BlockScan) : Prop :=
  state.fields.IsIdle ∨ state.fields.IsInside settings

/-- Between blocks the scan is sound. -/
theorem isSound_scanning (settings : Settings) : IsSound settings scanning :=
  Or.inl (Fields.isIdle_reset {})

/-- An opener unit leads inside its block, where its marker is held. -/
theorem isInside_of_opener {settings : Settings} {unit : Node} {found : OpenerUnit}
    (opens : openerUnit? unit = some found) (acts : settings.acts found.opener.action = true) :
    (collecting 1 found.opener.blob found.marker []).fields.IsInside settings := by
  have again := (isMarker_of_openerUnit opens).openerUnit
  have action : found.opener.action = settings.directiveAction := beq_iff_eq.mp acts
  refine ⟨rfl, ⟨found.marker, rfl, ?_⟩, rfl, coveredUnits_nil⟩
  rw [again, ← action]
  rfl

/-- A scan with units in progress is inside a block. -/
theorem IsSound.isInside {settings : Settings} {depth : Nat} {blob : Text} {opener : Node}
    {units : List Node} (sound : IsSound settings (collecting depth blob opener units)) :
    (collecting depth blob opener units).fields.IsInside settings := by
  rcases sound with idle | inside
  · exact absurd idle.phase (by simp [fields])
  · exact inside

namespace Fields.IsInside

variable {settings : Settings} {depth : Nat} {blob : Text} {opener : Node} {units : List Node}

/-- A level is open inside a block. -/
theorem depth_pos (inside : (collecting depth blob opener units).fields.IsInside settings) :
    0 < depth := by
  have counted : (depth : Int) = 1 + unitsLevel units := inside.depth
  have covered : 0 ≤ unitsLevel units := inside.covered.nonneg
  omega

/-- A unit that leaves a level open is accumulated, and the scan is still inside the block. -/
theorem collected (inside : (collecting depth blob opener units).fields.IsInside settings)
    (unit : Node) {next : Nat} (left : 0 < next)
    (level : (next : Int) = depth + unitsLevel [unit]) :
    (collecting next blob opener (units ++ [unit])).fields.IsInside settings := by
  have counted : (depth : Int) = 1 + unitsLevel units := inside.depth
  have counts : (next : Int) = 1 + unitsLevel (units ++ [unit]) := by
    rw [unitsLevel_append]
    omega
  have nonneg : 0 ≤ unitsLevel (units ++ [unit]) := by omega
  exact ⟨rfl, inside.opener, counts, inside.covered.append_singleton unit nonneg⟩

end Fields.IsInside

/-- A step leads from an idle state or one inside a block to such a state. -/
theorem Step.isSound {settings : Settings} {state next : BlockScan} {unit : Node}
    {outcome : Resolution} (step : Step settings state unit outcome next)
    (before : IsSound settings state) : IsSound settings next := by
  cases step with
  | outside plain => exact isSound_scanning settings
  | opening opens acts => exact Or.inr (isInside_of_opener opens acts)
  | deeper opens =>
    refine Or.inr (before.isInside.collected unit (Nat.succ_pos _) ?_)
    rw [unitsLevel_of_opener opens]
    rfl
  | within unopened unclosed =>
    refine Or.inr (before.isInside.collected unit before.isInside.depth_pos ?_)
    rw [unitsLevel_of_plain unopened unclosed, Int.add_zero]
  | shallower unopened closes nested =>
    refine Or.inr (before.isInside.collected unit (by omega) ?_)
    rw [unitsLevel_of_closer unopened closes]
    omega
  | closing unopened closes last => exact isSound_scanning settings

/-- A release leaves the scan between blocks. -/
theorem release_state (state : BlockScan) : state.release.2 = scanning := by
  cases state <;> rfl

/-- Commands lead from a scan at first to a state that is idle or inside a block. -/
theorem isSound_performAll (settings : Settings) (commands : List Command) :
    IsSound settings (performAll settings scanning commands) := by
  induction commands using List.reverseRecOn with
  | nil => exact isSound_scanning settings
  | append_singleton earlier command inductionHypothesis =>
    have last : performAll settings scanning (earlier ++ [command]) =
        perform settings (performAll settings scanning earlier) command := by
      rw [performAll, List.foldl_append]
      rfl
    rw [last]
    cases command with
    | feed unit => exact (step_feed settings _ unit).isSound inductionHypothesis
    | finish =>
      rw [perform, release_state]
      exact isSound_scanning settings
    | reset => exact isSound_scanning settings

/-- Whatever a scan was asked, its fields are those of the state that it has reached, and it is idle
    or inside a block.

    Proof: every command commutes with listing the fields of a state, so the fields after a run are
    those of one of the two states. In a state inside a block each step keeps the depth in step with
    the levels of the accumulated units, and the marker of an opener unit is read as that opener. -/
theorem performAll_idle_or_inside (settings : Settings) (commands : List Command) :
    ({} : Fields).performAll settings commands =
        (performAll settings scanning commands).fields ∧
      ((({} : Fields).performAll settings commands).IsIdle ∨
        (({} : Fields).performAll settings commands).IsInside settings) := by
  have reached := performAll_fields settings scanning commands
  refine ⟨reached, ?_⟩
  have sound := isSound_performAll settings commands
  rwa [IsSound, ← reached] at sound

end BlockScan

end HiddenContent
