import HiddenContent.Span

/-!
# Block regions among lines

A block directive stands on lines of its own: an opener line such as `:::hide{level=high}`,
the hidden lines, and a closer line `:::`. Blanks around the marker do not count. Only an
opener of the given action starts a region, but inside a region every opener, of any action,
opens a level and every closer closes one, and the region ends where its own level closes. A region
that never closes hides nothing.

`Layout.ofLines` cuts lines into the closed regions, each with the lines before it, and the
remaining lines. The remaining lines begin with no region, or hold one that never closes.
-/

namespace HiddenContent

/-- A line that opens a block: its action word and its attributes with their braces. -/
structure BlockOpener where
  action : Text
  blob : Text
deriving DecidableEq, Repr

namespace BlockOpener

/-- Read a line that holds, besides blanks around it, only a marker, an action word and
    perhaps a blob. -/
def ofLine? (line : Text) : Option BlockOpener :=
  match Span.inlineHead? line.strip with
  | none => none
  | some (action, rest) =>
    if Span.blobLength? false rest = some rest.length then some { action, blob := rest } else none

end BlockOpener

/-- True when a line holds only the closing marker and blanks around it. -/
def isBlockCloser (line : Text) : Bool := line.strip == Span.marker

/-- The lines that a closed region hides, and the lines after its closer. -/
structure ClosedBlock where
  interior : List Text
  after : List Text
deriving DecidableEq, Repr

namespace ClosedBlock

/-- Find the closer of the outer level, with `nested` more levels open. -/
def ofLines? : (nested : Nat) → List Text → Option ClosedBlock
  | _, [] => none
  | nested, line :: rest =>
    if (BlockOpener.ofLine? line).isSome then
      (ofLines? (nested + 1) rest).map fun block =>
        { block with interior := line :: block.interior }
    else if isBlockCloser line then
      match nested with
      | 0 => some { interior := [], after := rest }
      | nested + 1 =>
        (ofLines? nested rest).map fun block => { block with interior := line :: block.interior }
    else
      (ofLines? nested rest).map fun block => { block with interior := line :: block.interior }

/-- A block and what follows it are smaller than the lines it was found in. -/
theorem size_lt {nested : Nat} {lines : List Text} {block : ClosedBlock}
    (found : ofLines? nested lines = some block) :
    Text.linesSize block.interior + Text.linesSize block.after < Text.linesSize lines := by
  induction lines generalizing nested block with
  | nil => simp [ofLines?] at found
  | cons line rest inductionHypothesis =>
    have enlarged : ∀ {level : Nat} {outer : ClosedBlock},
        (ofLines? level rest).map (fun inner =>
          ({ inner with interior := line :: inner.interior } : ClosedBlock)) = some outer →
        Text.linesSize outer.interior + Text.linesSize outer.after <
          Text.linesSize (line :: rest) := by
      intro level outer mapped
      obtain ⟨inner, same, rfl⟩ := Option.map_eq_some_iff.mp mapped
      have smaller := inductionHypothesis same
      simp only [Text.linesSize_cons]
      omega
    unfold ofLines? at found
    split at found
    · exact enlarged found
    · split at found
      · split at found
        · simp only [Option.some.injEq] at found
          subst found
          simp only [Text.linesSize_nil, Text.linesSize_cons]
          omega
        · exact enlarged found
      · exact enlarged found

end ClosedBlock

/-- The first opener of an action among lines. -/
structure BlockStart where
  before : List Text
  opener : BlockOpener
  after : List Text
deriving DecidableEq, Repr

namespace BlockStart

/-- Read an opener line of the given action. -/
def acting? (action line : Text) : Option BlockOpener :=
  (BlockOpener.ofLine? line).filter fun opener => opener.action == action

/-- Find the first opener of the given action. -/
def find? (action : Text) : List Text → Option BlockStart
  | [] => none
  | line :: rest =>
    match acting? action line with
    | some opener => some { before := [], opener, after := rest }
    | none => (find? action rest).map fun start => { start with before := line :: start.before }

/-- The opener line stands between the lines before and the lines after. -/
theorem size_lt {action : Text} {lines : List Text} {start : BlockStart}
    (found : find? action lines = some start) :
    Text.linesSize start.before + Text.linesSize start.after < Text.linesSize lines := by
  induction lines generalizing start with
  | nil => simp [find?] at found
  | cons line rest inductionHypothesis =>
    unfold find? at found
    split at found
    · simp only [Option.some.injEq] at found
      subst found
      simp only [Text.linesSize_nil, Text.linesSize_cons]
      omega
    · obtain ⟨inner, same, rfl⟩ := Option.map_eq_some_iff.mp found
      have smaller := inductionHypothesis same
      simp only [Text.linesSize_cons]
      omega

end BlockStart

/-- Where the first region of an action stands, by line number; a region that never closes
    has no closer. -/
structure BlockRegion where
  opener : BlockOpener
  openerLine : Nat
  closerLine : Option Nat
deriving DecidableEq, Repr

namespace BlockRegion

/-- Find the first region whose opener stands at line `start` or after it. -/
def find? (action : Text) (lines : List Text) (start : Nat) : Option BlockRegion :=
  (BlockStart.find? action (lines.drop start)).map fun found =>
    let openerLine := start + found.before.length
    { opener := found.opener
      openerLine
      closerLine := (ClosedBlock.ofLines? 0 found.after).map fun block =>
        openerLine + 1 + block.interior.length }

/-- The numbers of the lines between opener and closer. -/
def interior (region : BlockRegion) : List Nat :=
  match region.closerLine with
  | none => []
  | some closer => List.range' (region.openerLine + 1) (closer - (region.openerLine + 1))

end BlockRegion

/-- A closed region with the lines between it and the region before. -/
structure Region where
  before : List Text
  opener : BlockOpener
  interior : List Text
deriving DecidableEq, Repr

namespace Region

/-- The first region of an action and the lines after it, unless it never closes. -/
def first? (action : Text) (lines : List Text) : Option (Region × List Text) :=
  (BlockStart.find? action lines).bind fun start =>
    (ClosedBlock.ofLines? 0 start.after).map fun block =>
      (⟨start.before, start.opener, block.interior⟩, block.after)

/-- A region and what follows it are smaller than the lines by its two markers. -/
theorem size_lt {action : Text} {lines after : List Text} {region : Region}
    (found : first? action lines = some (region, after)) :
    Text.linesSize region.interior + Text.linesSize after + 1 < Text.linesSize lines := by
  obtain ⟨start, opened, rest⟩ := Option.bind_eq_some_iff.mp found
  obtain ⟨block, closed, same⟩ := Option.map_eq_some_iff.mp rest
  have outer := BlockStart.size_lt opened
  have inner := ClosedBlock.size_lt closed
  simp only [Prod.mk.injEq] at same
  obtain ⟨rfl, rfl⟩ := same
  simp only
  omega

end Region

/-- Lines cut into closed regions and the lines after the last of them. -/
structure Layout where
  regions : List Region
  rest : List Text
deriving DecidableEq, Repr

namespace Layout

/-- Cut lines at the closed regions of an action, up to the first region that never closes. -/
def ofLines (action : Text) (lines : List Text) : Layout :=
  match _ : Region.first? action lines with
  | none => { regions := [], rest := lines }
  | some (region, after) =>
    let later := ofLines action after
    { later with regions := region :: later.regions }
termination_by Text.linesSize lines
decreasing_by
  have smaller := Region.size_lt ‹_›
  omega

/-- The hidden lines of a region are smaller than all lines by its two markers. -/
theorem size_interior_lt (action : Text) (lines : List Text) :
    ∀ region ∈ (ofLines action lines).regions,
      Text.linesSize region.interior + 1 < Text.linesSize lines := by
  fun_induction ofLines action lines with
  | case1 lines absent => simp
  | case2 lines first after found later inductionHypothesis =>
    have smaller := Region.size_lt found
    intro region member
    rcases List.mem_cons.mp member with same | inside
    · subst same
      omega
    · have deeper := inductionHypothesis region inside
      omega

end Layout

end HiddenContent
