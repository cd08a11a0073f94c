import HiddenContent.Proofs.Idempotence
import HiddenContent.Proofs.SegmentScan

/-!
# What encoding keeps

Encoding the blocks of a text is fail-open. The regions are met one after the other. Each region
that closes becomes one token line, at the place of its opener, and every line outside of these
regions stays as it is. An opener that never closes ends the search, and it stays with all lines
behind it.

The lines that are left hold no region that closes. A token line opens none, the lines between the
regions open none either, and an opener that stayed has the same lines behind it as before. So
encoding the blocks again changes nothing.

Together with the inline directives, encoding keeps a whole text exactly when it hides nothing of
it: no region of the lines closes, and no directive of the action stands in the text.
-/

namespace HiddenContent

/-- Where numbers do not count, numbered items make what the items make. -/
theorem flatMap_zipIdx_eq_flatMap {α β : Type} (items : List α) (start : Nat)
    (image : α × Nat → List β) (plain : α → List β)
    (same : ∀ item number, start ≤ number → number < start + items.length →
      image (item, number) = plain item) :
    (items.zipIdx start).flatMap image = items.flatMap plain := by
  rw [List.flatMap_def, List.flatMap_def, map_zipIdx_eq_map items start image plain same]

/-- The lines that no region covers, in order. -/
def BlockRegion.outside (regions : List BlockRegion) (lines : List Text) : List Text :=
  (lines.zipIdx.filter fun (_, number) => (regions.find? (·.covers number)).isNone).map Prod.fst

namespace Settings

variable (settings : Settings) {lines : List Text} {start : Nat} {region : BlockRegion}
  {regions : List BlockRegion}

/-! ## The lines that are left -/

/-- Encoding the blocks of a text again changes nothing. -/
theorem encodeBlocks_encodeBlocks (text : Text) :
    settings.encodeBlocks (settings.encodeBlocks text) = settings.encodeBlocks text := by
  have again := settings.encodeLines_of_none (settings.first?_encodeLines text.lines)
  rw [encodeBlocks, settings.lines_encodeBlocks, again]
  rfl

/-! ## Line by line -/

/-- What encoding leaves of the line of a number when the regions that close are given by line
    number: the line itself outside of them, a token line at an opener, and nothing on the other
    lines of a region. -/
def storedAt (settings : Settings) (regions : List BlockRegion) : Text × Nat → List Text
  | (line, number) =>
    match regions.find? (·.covers number) with
    | none => [line]
    | some region =>
      if number = region.openerLine then
        [settings.token .block (settings.canonicalize region.opener.blob)]
      else []

/-- Lines before the regions stay. -/
theorem flatMap_storedAt_before (before : List Text)
    (ahead : ∀ region ∈ regions, start + before.length ≤ region.openerLine) :
    (before.zipIdx start).flatMap (settings.storedAt regions) = before := by
  have kept := flatMap_zipIdx_eq_flatMap before start (settings.storedAt regions) ([·]) (by
    intro line number _ inside
    have uncovered : regions.find? (·.covers number) = none := by
      apply BlockRegion.find?_covers_eq_none
      intro region member
      have later := ahead region member
      omega
    simp only [storedAt, uncovered])
  rw [kept, List.flatMap_singleton']

/-- Nothing stays of the lines of a region behind its opener. -/
theorem flatMap_storedAt_within (inside : List Text) (opened : region.openerLine < start)
    (unclosed : ∀ closer ∈ region.closerLine, start + inside.length ≤ closer + 1) :
    (inside.zipIdx start).flatMap (settings.storedAt (region :: regions)) = [] := by
  have left := flatMap_zipIdx_eq_flatMap inside start (settings.storedAt (region :: regions))
    (fun _ => []) (by
      intro line number behind ahead
      have covered : region.covers number = true := by
        rw [BlockRegion.covers_iff]
        refine ⟨by omega, ?_⟩
        intro closer ends
        have later := unclosed closer ends
        omega
      have later : number ≠ region.openerLine := by omega
      simp only [storedAt, List.find?_cons, covered, if_neg later])
  rw [left, List.flatMap_eq_nil_iff]
  exact fun _ _ => rfl

/-- Behind a region, the other regions say what stays. -/
theorem flatMap_storedAt_behind (after : List Text) {closer : Nat}
    (ends : region.closerLine = some closer) :
    (after.zipIdx (closer + 1)).flatMap (settings.storedAt (region :: regions)) =
      (after.zipIdx (closer + 1)).flatMap (settings.storedAt regions) := by
  rw [List.flatMap_def, List.flatMap_def]
  congr 1
  apply List.map_congr_left
  rintro ⟨line, number⟩ member
  have behind := List.le_snd_of_mem_zipIdx member
  simp only [storedAt, BlockRegion.find?_covers_behind ends behind]

/-- Without regions, all lines stay. -/
theorem flatMap_storedAt_nil (lines : List Text) (start : Nat) :
    (lines.zipIdx start).flatMap (settings.storedAt []) = lines :=
  settings.flatMap_storedAt_before lines (by simp)

/-- From any line on, encoding leaves of each line what the regions say that are met from there and
    close. -/
theorem encodeLines_eq_storedAt (lines : List Text) (start : Nat) :
    settings.encodeLines (lines.drop start) =
      ((lines.drop start).zipIdx start).flatMap (settings.storedAt
        ((BlockRegion.met settings.directiveAction lines start).filter (·.closerLine.isSome))) := by
  fun_induction BlockRegion.met settings.directiveAction lines start with
  | case1 start absent =>
    have first : Region.first? settings.directiveAction (lines.drop start) = none :=
      (BlockRegion.first?_eq_none_iff _ lines start).mpr (by simp [absent])
    rw [settings.encodeLines_of_none first, List.filter_nil, flatMap_storedAt_nil]
  | case2 start region found unclosed =>
    have first : Region.first? settings.directiveAction (lines.drop start) = none :=
      (BlockRegion.first?_eq_none_iff _ lines start).mpr (by simp [found, unclosed])
    rw [settings.encodeLines_of_none first, List.filter_cons_of_neg (by simp [unclosed]),
      List.filter_nil, flatMap_storedAt_nil]
  | case3 start region found closer ends inductionHypothesis =>
    obtain ⟨before, opening, interior, closing, whole, _, opens, plain, place, stop, closes⟩ :=
      BlockRegion.exists_of_closed found ends
    have first := Region.first?_of_closed before _ opening region.opener _ plain opens closes
    rw [← whole] at first
    rw [settings.encodeLines_of_first first, inductionHypothesis, whole,
      List.filter_cons_of_pos (by simp [ends])]
    generalize later : (BlockRegion.met settings.directiveAction lines (closer + 1)).filter
      (·.closerLine.isSome) = others
    -- no region covers the lines before this one, and behind its closer only the others count
    have kept : (before.zipIdx start).flatMap (settings.storedAt (region :: others)) = before := by
      apply settings.flatMap_storedAt_before
      rw [List.forall_mem_cons, place, ← later]
      refine ⟨Nat.le_refl _, fun other member => ?_⟩
      have bounds := BlockRegion.bounds_of_mem_met _ lines _ other (List.mem_of_mem_filter member)
      omega
    have token : settings.storedAt (region :: others) (opening, region.openerLine) =
        [settings.token .block (settings.canonicalize region.opener.blob)] := by
      have covered : region.covers region.openerLine = true := by
        rw [BlockRegion.covers_iff, ends]
        simpa using (by omega : region.openerLine ≤ closer)
      simp only [storedAt, List.find?_cons, covered, if_true]
    have gone : ((interior ++ [closing]).zipIdx (region.openerLine + 1)).flatMap
        (settings.storedAt (region :: others)) = [] := by
      apply settings.flatMap_storedAt_within _ (Nat.lt_succ_self _)
      rw [ends]
      simp
      omega
    have behind : region.openerLine + 1 + (interior ++ [closing]).length = closer + 1 := by
      rw [List.length_append, List.length_singleton]
      omega
    rw [List.append_cons interior, List.zipIdx_append, List.flatMap_append, kept, ← place,
      List.zipIdx_cons, List.flatMap_cons, token, List.zipIdx_append, List.flatMap_append, gone,
      behind, settings.flatMap_storedAt_behind _ ends]
    rfl

/-- The lines outside of regions stay in their order. -/
theorem outside_sublist (regions : List BlockRegion) (lines : List Text) :
    (BlockRegion.outside regions lines).Sublist
      (lines.zipIdx.flatMap (settings.storedAt regions)) := by
  rw [BlockRegion.outside]
  induction lines.zipIdx with
  | nil => exact List.Sublist.slnil
  | cons item rest inductionHypothesis =>
    obtain ⟨line, number⟩ := item
    rw [List.flatMap_cons]
    cases covering : regions.find? (·.covers number) with
    | none =>
      have stays : settings.storedAt regions (line, number) = [line] := by
        simp only [storedAt, covering]
      rw [List.filter_cons_of_pos (by simp [covering]), List.map_cons, stays]
      exact inductionHypothesis.cons_cons line
    | some region =>
      rw [List.filter_cons_of_neg (by simp [covering])]
      exact inductionHypothesis.trans (List.sublist_append_right _ _)

/-- An opener that never closes is left at the end, with all lines behind it. -/
theorem drop_suffix_encodeLines (lines : List Text) (start : Nat) :
    ∀ region ∈ BlockRegion.met settings.directiveAction lines start, region.closerLine = none →
      lines.drop region.openerLine <:+ settings.encodeLines (lines.drop start) := by
  fun_induction BlockRegion.met settings.directiveAction lines start with
  | case1 start absent => simp
  | case2 start region found unclosed =>
    have first : Region.first? settings.directiveAction (lines.drop start) = none :=
      (BlockRegion.first?_eq_none_iff _ lines start).mpr (by simp [found, unclosed])
    obtain ⟨before, _, _, _, _, _, _, place, _⟩ := BlockRegion.exists_of_find found
    rw [List.forall_mem_singleton, settings.encodeLines_of_none first, place, ← List.drop_drop]
    exact fun _ => List.drop_suffix before.length _
  | case3 start region found closer ends inductionHypothesis =>
    obtain ⟨first, same⟩ := BlockRegion.first?_of_find found ends
    rw [List.forall_mem_cons, settings.encodeLines_of_first same]
    constructor
    · intro unclosed
      rw [ends] at unclosed
      exact absurd unclosed (by simp)
    · intro other member unclosed
      have tail := inductionHypothesis other member unclosed
      exact tail.trans ((List.suffix_cons _ _).trans (List.suffix_append _ _))

/-- Encoding the blocks of a text is a normal form that fails open. Encoding them again changes
    nothing. Of each line it leaves what the regions say that are met and close: every line outside
    of these stays, in its order, and each of them is one token line. When an opener that is met
    never closes, the encoded text ends with its line and all lines behind it.

    Proof: each part follows the regions that are met, by induction on them. No region closes among
    the lines that are left, so encoding them again keeps them. -/
theorem encodeBlocks_failOpen (text : Text) :
    let regions := BlockRegion.met settings.directiveAction text.lines 0
    let closed := regions.filter (·.closerLine.isSome)
    settings.encodeBlocks (settings.encodeBlocks text) = settings.encodeBlocks text ∧
      (settings.encodeBlocks text).lines = text.lines.zipIdx.flatMap (settings.storedAt closed) ∧
      (BlockRegion.outside closed text.lines).Sublist (settings.encodeBlocks text).lines ∧
      ∀ region ∈ regions, region.closerLine = none →
        text.lines.drop region.openerLine <:+ (settings.encodeBlocks text).lines := by
  intro regions closed
  have stored := settings.encodeLines_eq_storedAt text.lines 0
  have tail := settings.drop_suffix_encodeLines text.lines 0
  rw [List.drop_zero] at stored tail
  rw [settings.lines_encodeBlocks]
  refine ⟨settings.encodeBlocks_encodeBlocks text, stored, ?_, tail⟩
  rw [stored]
  exact settings.outside_sublist closed text.lines

/-- The first opener of this text closes. The second one never does, since the last line closes the
    block of another action. -/
theorem encodeBlocks_failOpen_unclosed :
    let text : Text := ":::hide\nx\n:::\na\n:::hide\n:::note\nb\n:::".toList
    [":::hide".toList, ":::note".toList, "b".toList, ":::".toList] <:+
      (encodeBlocks {} text).lines := by
  intro text
  have first : BlockRegion.find? "hide".toList text.lines 0 =
      some ⟨⟨"hide".toList, []⟩, 0, some 2⟩ := by decide
  have second : BlockRegion.find? "hide".toList text.lines 3 =
      some ⟨⟨"hide".toList, []⟩, 4, none⟩ := by decide
  have met := BlockRegion.met_of_found first
  rw [Option.map_some, Option.getD_some, BlockRegion.met_of_found second] at met
  exact (encodeBlocks_failOpen {} text).2.2.2 ⟨⟨"hide".toList, []⟩, 4, none⟩
    (by rw [met]; simp) rfl

/-! ## Texts that stay as they are -/

/-- Encoding keeps a text exactly when there is nothing in it to hide: no directive of the action,
    and no region, or a first one that never closes.

    Proof: a closed region would leave fewer lines, and a directive that hides would leave a token,
    which begins with another character. -/
theorem encode_eq_self_iff (text : Text) :
    settings.encode text = text ↔
      (∀ span ∈ Tokens.ofText text true, span.isPlaceholder = false →
        span.action ≠ settings.directiveAction) ∧
      (BlockRegion.find? settings.directiveAction text.lines 0 = none ∨
        ∃ region, BlockRegion.find? settings.directiveAction text.lines 0 = some region ∧
          region.closerLine = none) := by
  have shown (span : Span) : settings.hides span = false ↔
      (span.isPlaceholder = false → span.action ≠ settings.directiveAction) := by
    cases raw : span.isPlaceholder with
    | true => simp [hides, raw]
    | false => simp [hides, raw, acts]
  have absent := BlockRegion.first?_eq_none_iff settings.directiveAction text.lines 0
  rw [List.drop_zero] at absent
  rw [settings.encode_fixed_iff, Layout.regions_eq_nil_iff, absent, and_comm]
  simp only [shown]
  cases BlockRegion.find? settings.directiveAction text.lines 0 with
  | none => simp
  | some region => simp

end Settings

end HiddenContent
