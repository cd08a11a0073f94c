import HiddenContent.Proofs.OpenLines
import Mathlib.Data.List.Infix

/-!
# Balanced lines inside a block

Every line changes the number of open levels by one at most. Lines are balanced when they close
every level that they open and no other one. Balanced lines after an opener end at the next closer,
whatever they are, so a closed region begins and ends where its own markers stand. Encoding puts
a token made from the opener alone in its place, and the hidden lines leave no trace in the
stored text, nor in what a search finds there.
-/

namespace HiddenContent

/-- What a line adds to the number of open levels: an opener of any action opens one, and a closer
    closes one. -/
def levelChange (line : Text) : Int :=
  if (BlockOpener.ofLine? line).isSome then 1 else if isBlockCloser line then -1 else 0

/-- The levels that lines open, less those that they close. -/
def levelOf : List Text → Int
  | [] => 0
  | line :: rest => levelChange line + levelOf rest

/-- No lines change no level. -/
@[simp] theorem levelOf_nil : levelOf [] = 0 := rfl

/-- The level change of lines adds up line by line. -/
@[simp] theorem levelOf_cons (line : Text) (rest : List Text) :
    levelOf (line :: rest) = levelChange line + levelOf rest := rfl

/-- The level change of lines adds up part by part. -/
@[simp] theorem levelOf_append (first last : List Text) :
    levelOf (first ++ last) = levelOf first + levelOf last := by
  induction first with
  | nil => simp
  | cons line rest inductionHypothesis => simp [inductionHypothesis, Int.add_assoc]

/-- Lines that close every level they open, and no level that was open before them. -/
structure BalancedLines (lines : List Text) : Prop where
  settled : levelOf lines = 0
  covered : ∀ first ∈ lines.inits, 0 ≤ levelOf first

/-- A closer opens nothing: an opener has a word after its marker. -/
theorem BlockOpener.ofLine?_of_closer {line : Text} (closes : isBlockCloser line = true) :
    ofLine? line = none := by
  cases read : ofLine? line with
  | none => rfl
  | some opener =>
    obtain ⟨whole, word, _⟩ := (BlockOpener.ofLine?_eq_some_iff line opener).mp read
    rw [isBlockCloser, beq_iff_eq] at closes
    rw [closes, List.self_eq_append_right, List.append_eq_nil_iff] at whole
    exact absurd whole.1 word.1

/-! ## The closer of a balanced block -/

namespace ClosedBlock

/-- The next number of levels is the number before with what the line adds, unless that is
    negative. -/
theorem levelAfter?_eq_some_iff (nested level : Nat) (line : Text) :
    levelAfter? nested line = some level ↔ (level : Int) = nested + levelChange line := by
  rw [levelAfter?.eq_def, levelChange]
  by_cases opens : (BlockOpener.ofLine? line).isSome = true
  · rw [if_pos opens, if_pos opens, Option.some.injEq]
    omega
  · rw [if_neg opens, if_neg opens]
    by_cases closes : isBlockCloser line = true
    · rw [if_pos closes, if_pos closes]
      cases nested with
      | zero =>
        simp only [reduceCtorEq, false_iff]
        omega
      | succ inner =>
        rw [Option.some.injEq]
        omega
    · rw [if_neg closes, if_neg closes, Option.some.injEq]
      omega

/-- What a closed block hides closes every level that was open besides the outer one, and no
    beginning of it closes the outer one. -/
theorem levels_of_some {nested : Nat} {lines : List Text} {block : ClosedBlock}
    (found : ofLines? nested lines = some block) :
    nested + levelOf block.interior = 0 ∧
      ∀ first ∈ block.interior.inits, 0 ≤ nested + levelOf first := by
  induction lines generalizing nested block with
  | nil => simp [ofLines?] at found
  | cons line rest inductionHypothesis =>
    rw [ofLines?_cons] at found
    cases after : levelAfter? nested line with
    | none =>
      simp only [after, Option.some.injEq] at found
      obtain ⟨rfl, _⟩ := levelAfter?_eq_none after
      subst found
      simp
    | some level =>
      simp only [after] at found
      obtain ⟨inner, later, rfl⟩ := Option.map_eq_some_iff.mp found
      have same := (levelAfter?_eq_some_iff nested level line).mp after
      obtain ⟨settled, covered⟩ := inductionHypothesis later
      simp only [within, levelOf_cons, List.inits_cons, List.forall_mem_cons, List.forall_mem_map,
        levelOf_nil]
      refine ⟨by omega, by omega, ?_⟩
      intro first member
      have inside := covered first member
      omega

/-- The lines inside a block are balanced. -/
theorem balanced_interior {lines : List Text} {block : ClosedBlock}
    (found : ofLines? 0 lines = some block) : BalancedLines block.interior := by
  obtain ⟨settled, covered⟩ := levels_of_some found
  exact ⟨by simpa using settled, by simpa using covered⟩

/-- No beginning of lines in which no block is closed closes the outer level. -/
theorem levels_of_none {nested : Nat} {lines : List Text} (never : ofLines? nested lines = none) :
    ∀ first ∈ lines.inits, 0 ≤ nested + levelOf first := by
  induction lines generalizing nested with
  | nil => simp
  | cons line rest inductionHypothesis =>
    rw [ofLines?_cons] at never
    cases after : levelAfter? nested line with
    | none => simp [after] at never
    | some level =>
      simp only [after, Option.map_eq_none_iff] at never
      have same := (levelAfter?_eq_some_iff nested level line).mp after
      simp only [List.inits_cons, List.forall_mem_cons, List.forall_mem_map, levelOf_cons,
        levelOf_nil]
      refine ⟨by omega, ?_⟩
      intro first member
      have inside := inductionHypothesis never first member
      omega

/-- Lines that close what is open besides the outer level, and never more, end at a closer that
    follows them. -/
theorem ofLines?_of_levels (nested : Nat) (body after : List Text) (closing : Text)
    (settled : nested + levelOf body = 0)
    (covered : ∀ first ∈ body.inits, 0 ≤ nested + levelOf first)
    (closes : isBlockCloser closing = true) :
    ofLines? nested (body ++ closing :: after) = some ⟨body, after⟩ := by
  induction body generalizing nested with
  | nil =>
    have none : nested = 0 := by simpa using settled
    subst none
    have level : levelAfter? 0 closing = none := by
      simp [levelAfter?, BlockOpener.ofLine?_of_closer closes, closes]
    rw [List.nil_append, ofLines?_cons, level]
  | cons line rest inductionHypothesis =>
    rw [levelOf_cons] at settled
    have first := covered [line] (by simp)
    rw [levelOf_cons, levelOf_nil, Int.add_zero] at first
    obtain ⟨level, same⟩ := Int.eq_ofNat_of_zero_le first
    have later := inductionHypothesis level (by omega) (by
      intro part member
      have whole := covered (line :: part) (by simpa using member)
      rw [levelOf_cons] at whole
      omega)
    rw [List.cons_append, ofLines?_cons, (levelAfter?_eq_some_iff nested level line).mpr same.symm]
    simp only [later]
    rfl

end ClosedBlock

/-! ## Regions one after the other -/

/-- The first opener of an action is found behind lines that open no block of it. -/
theorem BlockStart.find?_of_plain {action : Text} (before after : List Text) (opening : Text)
    (opener : BlockOpener) (plain : ∀ line ∈ before, acting? action line = none)
    (opens : acting? action opening = some opener) :
    find? action (before ++ opening :: after) = some ⟨before, opener, after⟩ := by
  induction before with
  | nil => simp [find?, opens]
  | cons line rest inductionHypothesis =>
    have first := plain line (by simp)
    have later := inductionHypothesis fun other member => plain other (by simp [member])
    simp [find?, first, later]

namespace Region

/-- After lines that open nothing, an opener whose block closes begins the first region. -/
theorem first?_of_closed {action : Text} (before after : List Text) (opening : Text)
    (opener : BlockOpener) (block : ClosedBlock)
    (plain : ∀ line ∈ before, BlockStart.acting? action line = none)
    (opens : BlockStart.acting? action opening = some opener)
    (closes : ClosedBlock.ofLines? 0 after = some block) :
    first? action (before ++ opening :: after) =
      some (⟨before, opener, block.interior⟩, block.after) := by
  simp [first?, BlockStart.find?_of_plain before after opening opener plain opens, closes]

/-- The first region stays the first one before further lines. -/
theorem first?_append {action : Text} {lines after : List Text} {region : Region}
    (found : first? action lines = some (region, after)) (more : List Text) :
    first? action (lines ++ more) = some (region, after ++ more) := by
  obtain ⟨opening, closing, rfl, opens, _, plain, closes⟩ := exists_of_first found
  have further := ClosedBlock.ofLines?_append_some closes more
  rw [List.append_assoc, List.cons_append]
  exact first?_of_closed region.before _ opening region.opener _ plain opens further

end Region

namespace BlockStart

/-- No opener of an action is found exactly when no line opens a block of it. -/
theorem find?_eq_none_iff {action : Text} (lines : List Text) :
    find? action lines = none ↔ ∀ line ∈ lines, acting? action line = none := by
  induction lines with
  | nil => simp [find?]
  | cons line rest inductionHypothesis =>
    cases read : acting? action line with
    | none => simp [find?, read, inductionHypothesis]
    | some opener => simp [find?, read]

end BlockStart

namespace BlockRegion

/-- Every region that is met from a line on closes, each searched from the line after the closer of
    the one before. -/
inductive AllClosed (action : Text) (lines : List Text) : (start : Nat) → Prop where
  | absent {start : Nat} (missing : find? action lines start = none) :
      AllClosed action lines start
  | closed {start closer : Nat} {region : BlockRegion}
      (found : find? action lines start = some region) (ends : region.closerLine = some closer)
      (later : AllClosed action lines (closer + 1)) : AllClosed action lines start

/-- What is left of lines behind the first of two parts. -/
theorem drop_of_append {lines first last : List Text} {start : Nat}
    (parts : lines.drop start = first ++ last) : lines.drop (start + first.length) = last := by
  rw [← List.drop_drop, parts, List.drop_left]

/-- A region begins at the first opener of its action, and closes where the lines after it close
    a block. -/
theorem exists_of_find {action : Text} {lines : List Text} {start : Nat} {region : BlockRegion}
    (found : find? action lines start = some region) :
    ∃ before opening after, lines.drop start = before ++ opening :: after ∧
      lines.drop (region.openerLine + 1) = after ∧
      BlockStart.acting? action opening = some region.opener ∧
      (∀ line ∈ before, BlockStart.acting? action line = none) ∧
      region.openerLine = start + before.length ∧
      region.closerLine = (ClosedBlock.ofLines? 0 after).map fun block =>
        region.openerLine + 1 + block.interior.length := by
  obtain ⟨opened, same, rfl⟩ := Option.map_eq_some_iff.mp found
  obtain ⟨opening, whole, opens, plain⟩ := BlockStart.exists_of_find same
  have behind := drop_of_append (whole.trans (List.append_cons opened.before opening _))
  rw [List.length_append, List.length_singleton, ← Nat.add_assoc] at behind
  exact ⟨opened.before, opening, opened.after, whole, behind, opens, plain, rfl, rfl⟩

/-- A region that closes stands between its opener line and its closer line. -/
theorem exists_of_closed {action : Text} {lines : List Text} {start closer : Nat}
    {region : BlockRegion} (found : find? action lines start = some region)
    (ends : region.closerLine = some closer) :
    ∃ before opening interior closing,
      lines.drop start =
        before ++ opening :: (interior ++ closing :: lines.drop (closer + 1)) ∧
      lines.drop (region.openerLine + 1) = interior ++ closing :: lines.drop (closer + 1) ∧
      BlockStart.acting? action opening = some region.opener ∧
      (∀ line ∈ before, BlockStart.acting? action line = none) ∧
      region.openerLine = start + before.length ∧
      closer = region.openerLine + 1 + interior.length ∧
      ClosedBlock.ofLines? 0 (interior ++ closing :: lines.drop (closer + 1)) =
        some ⟨interior, lines.drop (closer + 1)⟩ := by
  obtain ⟨before, opening, after, whole, behind, opens, plain, place, closes⟩ :=
    exists_of_find found
  rw [ends] at closes
  obtain ⟨block, closed, rfl⟩ := Option.map_eq_some_iff.mp closes.symm
  obtain ⟨closing, rfl, _⟩ := ClosedBlock.exists_of_ofLines closed
  have rest := drop_of_append (behind.trans (List.append_cons block.interior closing _))
  rw [List.length_append, List.length_singleton, ← Nat.add_assoc] at rest
  rw [rest]
  exact ⟨before, opening, block.interior, closing, whole, behind, opens, plain, place, rfl, closed⟩

/-- A closer stands behind the line from which its region was searched. -/
theorem closer_bounds {action : Text} {lines : List Text} {start closer : Nat}
    {region : BlockRegion} (found : find? action lines start = some region)
    (ends : region.closerLine = some closer) : start ≤ closer ∧ closer < lines.length := by
  obtain ⟨before, opening, interior, closing, whole, _, _, _, place, rfl, _⟩ :=
    exists_of_closed found ends
  have size := congrArg List.length whole
  simp only [List.length_append, List.length_cons, List.length_drop] at size
  omega

/-- A region that closes is the first region of the lines it is searched in, and the search goes
    on with the lines after it. -/
theorem first?_of_find {action : Text} {lines : List Text} {start closer : Nat}
    {region : BlockRegion} (found : find? action lines start = some region)
    (ends : region.closerLine = some closer) :
    ∃ first, Region.first? action (lines.drop start) =
      some (first, lines.drop (closer + 1)) := by
  obtain ⟨before, opening, interior, closing, whole, _, opens, plain, _, _, closes⟩ :=
    exists_of_closed found ends
  have first := Region.first?_of_closed before _ opening region.opener _ plain opens closes
  rw [← whole] at first
  exact ⟨_, first⟩

/-- From a line on, no closed region comes first exactly when the search from there finds no region,
    or one that never closes. -/
theorem first?_eq_none_iff (action : Text) (lines : List Text) (start : Nat) :
    Region.first? action (lines.drop start) = none ↔
      ∀ region, find? action lines start = some region → region.closerLine = none := by
  rw [Region.first?, find?]
  cases BlockStart.find? action (lines.drop start) with
  | none => simp
  | some opened => simp

/-- When every region that is met closes, the lines left after the closed regions open none. -/
theorem AllClosed.plain_rest {action : Text} {lines : List Text} {start : Nat}
    (closed : AllClosed action lines start) :
    ∀ line ∈ (Layout.ofLines action (lines.drop start)).rest,
      BlockStart.acting? action line = none := by
  induction closed with
  | @absent start missing =>
    have unopened := Option.map_eq_none_iff.mp missing
    have first : Region.first? action (lines.drop start) = none := by
      simp [Region.first?, unopened]
    rw [Layout.ofLines_of_none first]
    exact (BlockStart.find?_eq_none_iff _).mp unopened
  | closed found ends later inductionHypothesis =>
    obtain ⟨first, same⟩ := first?_of_find found ends
    rw [Layout.ofLines_of_first same]
    exact inductionHypothesis

end BlockRegion

namespace Settings

/-- Behind lines in which every block closes, a block with balanced lines inside is encoded as a
    token made from its opener, and the lines after it are encoded on their own. -/
theorem encodeLines_block (settings : Settings) (before body after : List Text)
    (opening closing : Text) (opener : BlockOpener)
    (closed : ∀ line ∈ (Layout.ofLines settings.directiveAction before).rest,
      BlockStart.acting? settings.directiveAction line = none)
    (opens : BlockStart.acting? settings.directiveAction opening = some opener)
    (closes : isBlockCloser closing = true) (balanced : BalancedLines body) :
    settings.encodeLines (before ++ opening :: (body ++ closing :: after)) =
      settings.encodeLines before ++
        settings.token .block (settings.canonicalize opener.blob) ::
          settings.encodeLines after := by
  have block : ClosedBlock.ofLines? 0 (body ++ closing :: after) = some ⟨body, after⟩ := by
    apply ClosedBlock.ofLines?_of_levels 0 body after closing _ _ closes
    · simpa using balanced.settled
    · simpa using balanced.covered
  induction before using settings.encodeLines_induction with
  | none lines absent =>
    rw [Layout.ofLines_of_none absent] at closed
    have found := Region.first?_of_closed lines _ opening opener _ closed opens block
    rw [settings.encodeLines_of_first found, settings.encodeLines_of_none absent]
    rfl
  | first lines region rest found inductionHypothesis =>
    rw [Layout.ofLines_of_first found] at closed
    rw [settings.encodeLines_of_first (Region.first?_append found _),
      settings.encodeLines_of_first found, inductionHypothesis closed]
    simp

/-- Encoding the blocks of joined lines joins the encoded lines. -/
theorem encodeBlocks_ofLines (settings : Settings) (lines : List Text)
    (single : ∀ line ∈ lines, '\n' ∉ line) (inhabited : lines ≠ []) :
    settings.encodeBlocks (Text.ofLines lines) = Text.ofLines (settings.encodeLines lines) := by
  rw [encodeBlocks]
  rw [Text.lines_ofLines lines single inhabited]

/-- The lines inside a block do not change what is stored, and so not what a search finds.

    Proof: with either interior the block becomes the same token line, between the encoded lines
    before it and those behind it. -/
theorem encode_eq_of_balanced (settings : Settings) (before body other after : List Text)
    (opening closing : Text)
    (single : ∀ line ∈ before ++ opening :: (body ++ other ++ closing :: after), '\n' ∉ line)
    (closed : BlockRegion.AllClosed settings.directiveAction before 0)
    (opens : (BlockStart.acting? settings.directiveAction opening).isSome = true)
    (closes : isBlockCloser closing = true) (balanced : BalancedLines body)
    (otherBalanced : BalancedLines other) :
    settings.encode (Text.ofLines (before ++ opening :: (body ++ closing :: after))) =
        settings.encode (Text.ofLines (before ++ opening :: (other ++ closing :: after))) ∧
      ∀ predicates,
        Search.isMatch settings
            (settings.encode (Text.ofLines (before ++ opening :: (body ++ closing :: after))))
            predicates =
          Search.isMatch settings
            (settings.encode (Text.ofLines (before ++ opening :: (other ++ closing :: after))))
            predicates := by
  obtain ⟨opener, read⟩ := Option.isSome_iff_exists.mp opens
  have stored (inside : List Text) (subset : inside ⊆ body ++ other)
      (balancedInside : BalancedLines inside) :
      settings.encodeBlocks (Text.ofLines (before ++ opening :: (inside ++ closing :: after))) =
        Text.ofLines (settings.encodeLines before ++
          settings.token .block (settings.canonicalize opener.blob) ::
            settings.encodeLines after) := by
    rw [settings.encodeBlocks_ofLines _ _ (by simp),
      settings.encodeLines_block before inside after opening closing opener
        closed.plain_rest read closes balancedInside]
    intro line member
    apply single line
    simp only [List.mem_append, List.mem_cons] at member ⊢
    rcases member with early | rfl | within | late
    · exact Or.inl early
    · exact Or.inr (Or.inl rfl)
    · exact Or.inr (Or.inr (Or.inl (List.mem_append.mp (subset within))))
    · exact Or.inr (Or.inr (Or.inr late))
  have same : settings.encode
        (Text.ofLines (before ++ opening :: (body ++ closing :: after))) =
      settings.encode (Text.ofLines (before ++ opening :: (other ++ closing :: after))) := by
    rw [encode, encode, stored body (List.subset_append_left _ _) balanced,
      stored other (List.subset_append_right _ _) otherBalanced]
  exact ⟨same, fun predicates => by rw [same]⟩

/-- A foreign block with a directive and a token inside is stored as an empty one is, between a
    closed block and an opener that stays open. -/
theorem encode_eq_of_balanced_foreign :
    encode {} (Text.ofLines (["a".toList, ":::hide".toList, "x".toList, ":::".toList] ++
        " :::hide\x7bk=v\x7d".toList :: ([":::note".toList, "[hide-inline] :::hide s:::".toList,
          ":::".toList] ++ "::: ".toList :: ["b".toList, ":::hide".toList]))) =
      encode {} (Text.ofLines (["a".toList, ":::hide".toList, "x".toList, ":::".toList] ++
        " :::hide\x7bk=v\x7d".toList :: ([] ++ "::: ".toList ::
          ["b".toList, ":::hide".toList]))) := by
  refine (encode_eq_of_balanced {} _ _ _ _ _ _ ?_ ?_ ?_ ?_ ?_ ?_).1
  · decide
  · exact .closed (by decide : BlockRegion.find? "hide".toList _ 0 =
      some ⟨⟨"hide".toList, []⟩, 1, some 3⟩) rfl (.absent (by decide))
  · decide
  · decide
  · exact ⟨by decide, by decide⟩
  · exact ⟨by decide, by decide⟩

end Settings

end HiddenContent
