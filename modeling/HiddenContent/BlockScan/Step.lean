import HiddenContent.BlockScan

/-!
# What one step of a scan does

`Step` lists the ways in which a scan can take a unit, each with the guard that leads to it and
with the state and the outcome after it. `step_feed` and `Step.feed_eq` say that the scan takes
exactly these ways, so whatever holds of a step is shown by going through them.
-/

namespace HiddenContent

namespace BlockScan

/-- How the unit of an opener appears: what stands before the opener, when there is anything. -/
def openerOutcome (found : OpenerUnit) : Resolution :=
  match found.leading with
  | some leading => .replaced [leading]
  | none => .removed

/-- What an opener unit leaves in the note is what stands before its opener line, if anything. -/
@[simp] theorem nodes_openerOutcome (found : OpenerUnit) :
    (openerOutcome found).nodes = found.leading.toList := by
  rw [openerOutcome]
  cases found.leading <;> rfl

/-- The ways in which a scan takes a unit. -/
inductive Step (settings : Settings) : BlockScan → Node → Resolution → BlockScan → Prop where
  | outside {unit : Node}
      (plain : ((openerUnit? unit).filter fun found => settings.acts found.opener.action) = none) :
      Step settings scanning unit (.unchanged unit) scanning
  | opening {unit : Node} {found : OpenerUnit} (opens : openerUnit? unit = some found)
      (acts : settings.acts found.opener.action = true) :
      Step settings scanning unit (openerOutcome found)
        (collecting 1 found.opener.blob found.marker [])
  | deeper {depth : Nat} {blob : Text} {opener unit : Node} {units : List Node}
      (opens : (openerUnit? unit).isSome = true) :
      Step settings (collecting depth blob opener units) unit .removed
        (collecting (depth + 1) blob opener (units ++ [unit]))
  | within {depth : Nat} {blob : Text} {opener unit : Node} {units : List Node}
      (unopened : openerUnit? unit = none) (unclosed : closerUnit? unit = none) :
      Step settings (collecting depth blob opener units) unit .removed
        (collecting depth blob opener (units ++ [unit]))
  | shallower {depth : Nat} {blob : Text} {opener unit : Node} {units : List Node}
      (unopened : openerUnit? unit = none) (closes : (closerUnit? unit).isSome = true)
      (nested : 1 < depth) :
      Step settings (collecting depth blob opener units) unit .removed
        (collecting (depth - 1) blob opener (units ++ [unit]))
  | closing {depth : Nat} {blob : Text} {opener unit : Node} {units : List Node}
      {residual : Option Node} (unopened : openerUnit? unit = none)
      (closes : closerUnit? unit = some residual) (last : depth ≤ 1) :
      Step settings (collecting depth blob opener units) unit
        (.replaced [hiddenBlock settings blob (units ++ residual.toList)]) scanning

/-- Taking a unit is one of the ways. -/
theorem step_feed (settings : Settings) (state : BlockScan) (unit : Node) :
    Step settings state unit (feed settings state unit).1 (feed settings state unit).2 := by
  cases state with
  | scanning =>
    cases selected : (openerUnit? unit).filter fun found => settings.acts found.opener.action with
    | none =>
      simp only [feed, selected]
      exact .outside selected
    | some found =>
      obtain ⟨opens, acts⟩ := Option.filter_eq_some_iff.mp selected
      simp only [feed, selected]
      exact .opening opens acts
  | collecting depth blob opener units =>
    cases opens : openerUnit? unit with
    | some found =>
      simp only [feed, opens, Option.isSome_some, if_true]
      exact .deeper (by simp [opens])
    | none =>
      cases closes : closerUnit? unit with
      | none =>
        simp only [feed, opens, closes, Option.isSome_none, Bool.false_eq_true, if_false]
        exact .within opens closes
      | some residual =>
        by_cases nested : 1 < depth
        · simp only [feed, opens, closes, nested, Option.isSome_none, Bool.false_eq_true, if_false,
            if_true]
          exact .shallower opens (by simp [closes]) nested
        · simp only [feed, opens, closes, nested, Option.isSome_none, Bool.false_eq_true, if_false]
          exact .closing opens closes (by omega)

/-- Each of the ways is what taking the unit does. -/
theorem Step.feed_eq {settings : Settings} {state next : BlockScan} {unit : Node}
    {outcome : Resolution} (step : Step settings state unit outcome next) :
    feed settings state unit = (outcome, next) := by
  cases step with
  | outside plain => simp only [feed, plain]
  | opening opens acts =>
    simp only [feed, opens, Option.filter_some, acts, if_true]
    rfl
  | deeper opens => simp only [feed, opens, if_true]
  | within unopened unclosed => simp [feed, unopened, unclosed]
  | shallower unopened closes nested =>
    obtain ⟨residual, closes⟩ := Option.isSome_iff_exists.mp closes
    simp [feed, unopened, closes, nested]
  | closing unopened closes last => simp [feed, unopened, closes, Nat.not_lt_of_le last]

/-- Units are taken one part after the other. -/
theorem feedAll_append (settings : Settings) (state : BlockScan) (first last : List Node) :
    feedAll settings state (first ++ last) =
      ((feedAll settings state first).1 ++
          (feedAll settings (feedAll settings state first).2 last).1,
        (feedAll settings (feedAll settings state first).2 last).2) := by
  induction first generalizing state with
  | nil => rfl
  | cons unit rest inductionHypothesis =>
    simp only [List.cons_append, feedAll, inductionHypothesis]

end BlockScan

end HiddenContent
