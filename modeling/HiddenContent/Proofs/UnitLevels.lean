import HiddenContent.BlockScan.Step
import Mathlib.Data.List.Infix

/-!
# Levels of units

The levels of units are counted apart from any scan: a unit that ends with an opener of any action
opens one, and a unit that ends with a closer and not with an opener closes one. A scan that is
inside a block collects units as long as they leave a level open, and its depth is then what their
count says. So a block ends at the closer behind balanced units, whatever they are, and a block
whose level is never closed collects all units up to the end.
-/

namespace HiddenContent

namespace BlockScan

/-- True for a unit that opens a level: it ends with an opener, whatever its action. -/
def opensLevel (unit : Node) : Bool := (openerUnit? unit).isSome

/-- True for a unit that closes a level: it ends with a closer and not with an opener. -/
def closesLevel (unit : Node) : Bool := !opensLevel unit && (closerUnit? unit).isSome

/-- The levels that units open, less those that they close. -/
def unitsLevel (units : List Node) : Int := units.countP opensLevel - units.countP closesLevel

/-- No units change no level. -/
@[simp] theorem unitsLevel_nil : unitsLevel [] = 0 := rfl

/-- The level change of units adds up part by part. -/
@[simp] theorem unitsLevel_append (first last : List Node) :
    unitsLevel (first ++ last) = unitsLevel first + unitsLevel last := by
  simp only [unitsLevel, List.countP_append]
  omega

/-- The level change of units adds up unit by unit. -/
theorem unitsLevel_cons (unit : Node) (rest : List Node) :
    unitsLevel (unit :: rest) = unitsLevel [unit] + unitsLevel rest :=
  unitsLevel_append [unit] rest

/-- A unit that ends with an opener opens a level. -/
theorem unitsLevel_of_opener {unit : Node} (opens : (openerUnit? unit).isSome = true) :
    unitsLevel [unit] = 1 := by
  simp [unitsLevel, opensLevel, closesLevel, opens]

/-- A unit that ends with a closer and not with an opener closes a level. -/
theorem unitsLevel_of_closer {unit : Node} (unopened : openerUnit? unit = none)
    (closes : (closerUnit? unit).isSome = true) : unitsLevel [unit] = -1 := by
  simp [unitsLevel, opensLevel, closesLevel, unopened, closes]

/-- Any other unit changes no level. -/
theorem unitsLevel_of_plain {unit : Node} (unopened : openerUnit? unit = none)
    (unclosed : closerUnit? unit = none) : unitsLevel [unit] = 0 := by
  simp [unitsLevel, opensLevel, closesLevel, unopened, unclosed]

/-- Units that close no level that was open before them: with one level open at first, one is open
    after every beginning of them. -/
def CoveredUnits (units : List Node) : Prop := ∀ first ∈ units.inits, 0 ≤ unitsLevel first

instance (units : List Node) : Decidable (CoveredUnits units) :=
  inferInstanceAs (Decidable (∀ first ∈ units.inits, 0 ≤ unitsLevel first))

/-- No units close no level. -/
theorem coveredUnits_nil : CoveredUnits [] := by simp [CoveredUnits]

/-- Units stay covered before one more that leaves no level closed that was open before them. -/
theorem CoveredUnits.append_singleton {units : List Node} (covered : CoveredUnits units)
    (unit : Node) (left : 0 ≤ unitsLevel (units ++ [unit])) : CoveredUnits (units ++ [unit]) := by
  intro first member
  rw [List.inits_append] at member
  rcases List.mem_append.mp member with inUnits | whole
  · exact covered first inUnits
  · obtain rfl : first = units ++ [unit] := by simpa using whole
    exact left

/-- Units that close no level open before them open as many as they close, or more. -/
theorem CoveredUnits.nonneg {units : List Node} (covered : CoveredUnits units) :
    0 ≤ unitsLevel units := covered units ((List.mem_inits _ _).mpr (List.prefix_refl units))

/-- Units that close every level they open, and no level that was open before them. -/
structure BalancedUnits (units : List Node) : Prop where
  settled : unitsLevel units = 0
  covered : CoveredUnits units

/-- Inside a block, a unit that leaves a level open is collected, and the depth is what it leaves
    open. -/
theorem feed_collecting_of_level (settings : Settings) (depth next : Nat) (blob : Text)
    (opener unit : Node) (units : List Node) (inside : 0 < depth) (left : 0 < next)
    (level : (next : Int) = depth + unitsLevel [unit]) :
    feed settings (collecting depth blob opener units) unit =
      (.removed, collecting next blob opener (units ++ [unit])) := by
  apply Step.feed_eq
  cases opens : openerUnit? unit with
  | some found =>
    have isOpener : (openerUnit? unit).isSome = true := by simp [opens]
    rw [unitsLevel_of_opener isOpener] at level
    obtain rfl : next = depth + 1 := by omega
    exact .deeper isOpener
  | none =>
    cases closes : closerUnit? unit with
    | none =>
      rw [unitsLevel_of_plain opens closes] at level
      obtain rfl : next = depth := by omega
      exact .within opens closes
    | some residual =>
      have isCloser : (closerUnit? unit).isSome = true := by simp [closes]
      rw [unitsLevel_of_closer opens isCloser] at level
      obtain rfl : next = depth - 1 := by omega
      exact .shallower opens isCloser (by omega)

/-- Inside a block, units that leave a level open one after the other are all collected. -/
theorem feedAll_collecting_of_levels (settings : Settings) (depth : Nat) (blob : Text)
    (opener : Node) (units more : List Node)
    (left : ∀ first ∈ more.inits, 0 < (depth : Int) + unitsLevel first) :
    feedAll settings (collecting depth blob opener units) more =
      (more.map fun _ => .removed,
        collecting ((depth : Int) + unitsLevel more).toNat blob opener (units ++ more)) := by
  induction more generalizing depth units with
  | nil => simp [feedAll]
  | cons unit rest inductionHypothesis =>
    have here := left [] (by simp)
    have first := left [unit] (by simp)
    obtain ⟨next, same⟩ := Int.eq_ofNat_of_zero_le (Int.le_of_lt first)
    have fed := feed_collecting_of_level settings depth next blob opener unit units
      (by simpa using here) (by omega) same.symm
    have later := inductionHypothesis next (units ++ [unit]) (by
      intro part member
      have whole := left (unit :: part) (by simpa using member)
      rw [unitsLevel_cons] at whole
      omega)
    rw [feedAll, fed]
    simp only [later]
    rw [unitsLevel_cons, ← Int.add_assoc, same]
    simp

/-! ## What becomes of a block -/

/-- Between blocks nothing is given back at the end. -/
theorem finish_scanning (settings : Settings) : finish settings scanning = [] := by rw [finish]

/-- Behind units that leave no block in progress, the scan is as at its start. -/
theorem outcomes_append (settings : Settings) (before after : List Node)
    (outside : (feedAll settings scanning before).2 = scanning) :
    outcomes settings (before ++ after) = outcomes settings before ++ outcomes settings after := by
  simp only [outcomes, feedAll_append, outside, finish_scanning, List.append_nil,
    List.append_assoc]

section Opened

variable (settings : Settings) {opening : Node} {found : OpenerUnit}
  (opens : openerUnit? opening = some found)
  (acts : settings.acts found.opener.action = true)

include opens acts

/-- Behind an opener, units that never close its level are all collected. -/
theorem feedAll_opened {units : List Node} (covered : CoveredUnits units) :
    feedAll settings scanning (opening :: units) =
      (openerOutcome found :: units.map fun _ => .removed,
        collecting (1 + unitsLevel units).toNat found.opener.blob found.marker units) := by
  have entered : feed settings scanning opening =
      (openerOutcome found, collecting 1 found.opener.blob found.marker []) :=
    (Step.opening opens acts).feed_eq
  have inside := feedAll_collecting_of_levels settings 1 found.opener.blob found.marker [] units
    (by
      intro first member
      have level := covered first member
      omega)
  rw [feedAll, entered]
  simp only [inside]
  rfl

section Balanced

variable {body : List Node} (after : List Node) {closing : Node} {residual : Option Node}
  (balanced : BalancedUnits body) (unopened : openerUnit? closing = none)
  (closes : closerUnit? closing = some residual)

include balanced unopened closes

/-- A block with balanced units inside ends at the closer behind them, and owns them and what
    stands before the closer. Behind it the scan is as at its start. -/
theorem feedAll_of_balanced :
    feedAll settings scanning (opening :: (body ++ closing :: after)) =
      (openerOutcome found :: ((body.map fun _ => .removed) ++
        .replaced [hiddenBlock settings found.opener.blob (body ++ residual.toList)] ::
          (feedAll settings scanning after).1),
        (feedAll settings scanning after).2) := by
  have entered := feedAll_opened settings opens acts balanced.covered
  rw [balanced.settled] at entered
  have left : feed settings (collecting 1 found.opener.blob found.marker body) closing =
      (.replaced [hiddenBlock settings found.opener.blob (body ++ residual.toList)], scanning) :=
    (Step.closing unopened closes (Nat.le_refl 1)).feed_eq
  rw [← List.cons_append, feedAll_append, entered]
  simp only [Int.add_zero, Int.toNat_one, feedAll, left, List.cons_append]

/-- The outcomes around a block with balanced units inside are those of the units after it. -/
theorem outcomes_of_balanced :
    outcomes settings (opening :: (body ++ closing :: after)) =
      openerOutcome found :: ((body.map fun _ => .removed) ++
        .replaced [hiddenBlock settings found.opener.blob (body ++ residual.toList)] ::
          outcomes settings after) := by
  rw [outcomes, feedAll_of_balanced settings opens acts after balanced unopened closes]
  simp [outcomes]

end Balanced

/-- A block whose level is never closed gives its marker back, and the units after it are taken
    again. -/
theorem outcomes_of_covered {rest : List Node} (covered : CoveredUnits rest) :
    outcomes settings (opening :: rest) =
      openerOutcome found :: ((rest.map fun _ => .removed) ++
        .replaced [found.marker] :: outcomes settings rest) := by
  rw [outcomes, feedAll_opened settings opens acts covered]
  simp only [finish, List.cons_append]
  rfl

end Opened

end BlockScan

end HiddenContent
