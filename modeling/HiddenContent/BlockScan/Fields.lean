import HiddenContent.BlockScan.Step

/-!
# The fields of a scan

A scan that is kept from one call to the next has five fields: its phase, the number of open
levels, the attributes and the marker of its opener, and the units that it has accumulated. Each
call assigns some of them, and only these assignments keep the fields in step with the phase: a
scan that is not collecting leaves the other fields as they are, and the end of a block has to set
all of them back.

`BlockScan.fields` lists the fields of a scan in one of its two states. `feed_fields`,
`finish_fields` and `reset_fields` say that the calls on the fields commute with it.
-/

namespace HiddenContent

namespace BlockScan

/-- Whether units are being collected. -/
inductive Phase where
  | scanning
  | collecting
deriving DecidableEq, Repr

/-- The fields of a scan, as they are at first. -/
structure Fields where
  phase : Phase := .scanning
  depth : Nat := 0
  blob : Text := []
  opener : Option Node := none
  accumulator : List Node := []

namespace Fields

/-- Set all fields back. -/
def reset (fields : Fields) : Fields :=
  { fields with
    phase := .scanning
    depth := 0
    blob := []
    opener := none
    accumulator := [] }

/-- Keep a unit. -/
def accumulate (fields : Fields) (unit : Node) : Fields :=
  { fields with accumulator := fields.accumulator ++ [unit] }

/-- Take the next unit. -/
def feed (settings : Settings) (fields : Fields) (unit : Node) : Resolution × Fields :=
  match fields.phase with
  | .scanning =>
    match (openerUnit? unit).filter fun found => settings.acts found.opener.action with
    | none => (.unchanged unit, fields)
    | some found =>
      (openerOutcome found,
        { fields with
          phase := .collecting
          depth := 1
          blob := found.opener.blob
          opener := some found.marker
          accumulator := [] })
  | .collecting =>
    if (openerUnit? unit).isSome then
      (.removed, { fields with depth := fields.depth + 1 }.accumulate unit)
    else
      match closerUnit? unit with
      | none => (.removed, fields.accumulate unit)
      | some residual =>
        let closed := { fields with depth := fields.depth - 1 }
        if 0 < closed.depth then (.removed, closed.accumulate unit)
        else
          let last := residual.elim closed closed.accumulate
          (.replaced [hiddenBlock settings last.blob last.accumulator], last.reset)

/-- End the sequence, and give back what a block in progress holds. -/
def finish (fields : Fields) : List Node × Fields :=
  match fields.phase with
  | .scanning => ([], fields)
  | .collecting => (fields.opener.toList ++ fields.accumulator, fields.reset)

end Fields

/-- The fields of a scan in one of its two states. -/
def fields : BlockScan → Fields
  | scanning => {}
  | collecting depth blob opener units =>
    { phase := .collecting, depth, blob, opener := some opener, accumulator := units }

/-- Each of the ways in which a scan takes a unit is what taking it does to the fields. -/
theorem Step.feed_fields {settings : Settings} {state next : BlockScan} {unit : Node}
    {outcome : Resolution} (step : Step settings state unit outcome next) :
    state.fields.feed settings unit = (outcome, next.fields) := by
  cases step with
  | outside plain => simp only [fields, Fields.feed, plain]
  | opening opens acts =>
    simp only [fields, Fields.feed, opens, Option.filter_some, acts, if_true]
  | deeper opens =>
    simp only [fields, Fields.feed, Fields.accumulate, opens, if_true]
  | within unopened unclosed => simp [fields, Fields.feed, Fields.accumulate, unopened, unclosed]
  | @shallower depth _ _ _ _ unopened closes nested =>
    obtain ⟨residual, closes⟩ := Option.isSome_iff_exists.mp closes
    have left : 0 < depth - 1 := by omega
    simp [fields, Fields.feed, Fields.accumulate, unopened, closes, left]
  | @closing depth _ _ _ _ residual unopened closes last =>
    have settled : ¬0 < depth - 1 := by omega
    cases residual <;>
      simp [fields, Fields.feed, Fields.accumulate, Fields.reset, unopened, closes, settled]

/-- Taking a unit changes the fields as it changes the state, with the same outcome. -/
theorem feed_fields (settings : Settings) (state : BlockScan) (unit : Node) :
    state.fields.feed settings unit =
      ((feed settings state unit).1, (feed settings state unit).2.fields) :=
  (step_feed settings state unit).feed_fields

/-- Ending the sequence gives back the same from the fields as from the state. -/
theorem finish_fields (state : BlockScan) :
    state.fields.finish = (state.release.1, state.release.2.fields) := by
  cases state with
  | scanning => rfl
  | collecting depth blob opener units => rfl

/-- Fields that are set back are those of a scan at first. -/
theorem reset_fields (state : BlockScan) : state.fields.reset = scanning.fields := rfl

end BlockScan

end HiddenContent
