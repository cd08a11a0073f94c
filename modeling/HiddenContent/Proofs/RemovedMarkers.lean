import HiddenContent.Proofs.AuthoredUnits
import HiddenContent.Proofs.OpenerSpans

/-!
# What a marker takes from its unit

The scan takes the marker of a block away from the unit that ends with it. An opener is looked for
in the last text of a paragraph, a closer at the end of the last children, at any depth. Nodes that
hold nothing any more go with the marker, and so do the blank lines before it, at every level.

What an author wrote beside a marker stays. The texts of the unit, one after the other, are those of
what is left, then blanks, the marker, and blanks again. `CutAtEnd` says where the unit was changed
by a closer: along its last children, and nowhere else.
-/

namespace HiddenContent

namespace Text

/-- A text has no line feed and is its last line, or is cut at its last line feed. -/
theorem lastLine_parts (text : Text) :
    text.lastLine = (none, text) ∨
      ∃ head line, text = head ++ '\n' :: line ∧ text.lastLine = (some head, line) := by
  obtain ⟨line, same⟩ : ∃ line, text.lastLine.2 = line := ⟨_, rfl⟩
  have single := (exists_of_lastLine text).1
  have cases := lastLine_cases text
  rw [same] at single cases
  rcases cases with rfl | ⟨head, rfl⟩
  · exact Or.inl (lastLine_eq text single)
  · exact Or.inr ⟨head, line, rfl, lastLine_append_lineFeed head line single⟩

/-- A text is what stands before its last line that is not blank, and this line between blanks. -/
theorem exists_around_lastLine (text : Text) :
    ∃ before after, before.IsBlankRun ∧ after.IsBlankRun ∧
      text = text.stripEnd.lastLine.1.getD [] ++
        (before ++ (text.stripEnd.lastLine.2 ++ after)) := by
  obtain ⟨after, whole, trailing, _⟩ := exists_stripEnd text
  rcases lastLine_parts text.stripEnd with parts | ⟨head, line, cut, parts⟩
  · refine ⟨[], after, isBlankRun_nil, trailing, ?_⟩
    rw [parts]
    exact whole
  · refine ⟨['\n'], after, List.forall_mem_singleton.mpr (by decide), trailing, ?_⟩
    rw [parts]
    rw [cut] at whole
    simpa using whole

end Text

/-! ## The texts of a node -/

namespace Node

mutual

/-- The values of all texts in a node, in order, those below hidden nodes too. -/
def flatText : Node → Text
  | element kind value children _ =>
    (if kind.text = textKind then value.text else []) ++ flatTexts children
  | hiddenInline _ _ _ => []
  | hiddenBlock _ _ children => flatTexts children

/-- The same for a sequence. -/
def flatTexts : List Node → Text
  | [] => []
  | node :: rest => flatText node ++ flatTexts rest

end

/-- No nodes hold no text. -/
@[simp] theorem flatTexts_nil : flatTexts [] = [] := rfl

/-- The texts of nodes, one after the other. -/
@[simp] theorem flatTexts_cons (node : Node) (rest : List Node) :
    flatTexts (node :: rest) = flatText node ++ flatTexts rest := rfl

/-- The texts of nodes that follow one another. -/
@[simp] theorem flatTexts_append (first second : List Node) :
    flatTexts (first ++ second) = flatTexts first ++ flatTexts second := by
  induction first with
  | nil => rfl
  | cons node rest inductionHypothesis => simp [inductionHypothesis]

/-- A text node holds its value. -/
@[simp] theorem flatText_ofText (value : Text) : flatText (ofText value) = value := by
  simp [ofText, flatText]

/-- A text that encloses nothing holds its value. -/
theorem flatText_of_isText {node : Node} (isText : node.isText = true)
    (childless : node.children = []) : node.flatText = node.valueText := by
  cases node with
  | element kind value children data =>
    have same : kind.text = textKind := beq_iff_eq.mp isText
    have none : children = [] := childless
    rw [flatText, if_pos same, none, flatTexts_nil, List.append_nil]
    rfl
  | hiddenInline _ _ _ => exact absurd (isText.symm.trans (isText_of_isHidden rfl)) (by simp)
  | hiddenBlock _ _ _ => exact absurd (isText.symm.trans (isText_of_isHidden rfl)) (by simp)

/-- Any other node holds the texts of its children. -/
theorem flatText_of_isText_eq_false {node : Node} (other : node.isText = false) :
    node.flatText = flatTexts node.children := by
  cases node with
  | element kind value children data =>
    have distinct : ¬kind.text = textKind := by simpa [isText, Node.kind] using other
    rw [flatText, if_neg distinct, List.nil_append]
    rfl
  | hiddenInline _ _ _ => rfl
  | hiddenBlock _ _ _ => rfl

/-- A paragraph holds the texts of its children. -/
@[simp] theorem flatText_paragraph (children : List Node) :
    flatText (paragraph children) = flatTexts children :=
  flatText_of_isText_eq_false (by decide : (paragraphKind == textKind) = false)

/-- A blank line holds no text, and a text encloses nothing. -/
structure IsTidy (node : Node) : Prop where
  blank : node.isLineBreak = true → node.flatText = []
  childless : node.isText = true → node.children = []

/-- A text node is tidy. -/
theorem isTidy_ofText (value : Text) : (ofText value).Everywhere IsTidy :=
  .node ⟨fun isBreak => absurd isBreak (by decide : ¬(textKind == lineBreakKind) = true),
    fun _ => rfl⟩ (by simp [ofText, children])

/-- A line break is tidy. -/
theorem isTidy_lineBreak : lineBreak.Everywhere IsTidy :=
  .node ⟨fun _ => rfl, fun _ => rfl⟩ (by simp [lineBreak, children])

/-- A node that is neither a text nor a line break is tidy around tidy children. -/
theorem isTidy_around {node : Node} (solid : node.isLineBreak = false)
    (other : node.isText = false) (below : ∀ child ∈ node.children, child.Everywhere IsTidy) :
    node.Everywhere IsTidy :=
  .node ⟨fun isBreak => absurd isBreak (by simp [solid]),
    fun isText => absurd isText (by simp [other])⟩ below

/-- Line breaks hold no text. -/
theorem flatTexts_of_lineBreaks {nodes : List Node}
    (breaks : ∀ node ∈ nodes, node.isLineBreak = true)
    (tidy : ∀ node ∈ nodes, node.Everywhere IsTidy) : flatTexts nodes = [] := by
  induction nodes with
  | nil => rfl
  | cons node rest inductionHypothesis =>
    obtain ⟨first, others⟩ := List.forall_mem_cons.mp breaks
    obtain ⟨here, later⟩ := List.forall_mem_cons.mp tidy
    rw [flatTexts_cons, here.here.blank first, inductionHypothesis others later, List.append_nil]

/-- A node given other children holds their texts. -/
theorem flatText_withChildren {node : Node} (other : node.isText = false)
    (inhabited : node.children ≠ []) (kept : List Node) :
    (node.withChildren kept).flatText = flatTexts kept := by
  cases node with
  | element kind value children data =>
    have around : (element kind value kept data).isText = false := other
    exact flatText_of_isText_eq_false around
  | hiddenInline _ _ _ => exact absurd rfl inhabited
  | hiddenBlock _ _ _ => rfl

/-- A node given other children keeps its kind. -/
theorem kind_withChildren (node : Node) (kept : List Node) :
    (node.withChildren kept).kind = node.kind := by
  cases node <;> rfl

/-- A node around what is left of its children, or nothing of it. -/
def remainder (node : Node) (kept : List Node) : Option Node :=
  if kept.isEmpty then none else some (node.withChildren kept)

/-- A remainder holds the texts of the children that are left, also when there are none. -/
theorem flatTexts_remainder {node : Node} (other : node.isText = false)
    (inhabited : node.children ≠ []) (kept : List Node) :
    flatTexts (node.remainder kept).toList = flatTexts kept := by
  rw [remainder]
  by_cases empty : kept.isEmpty = true
  · rw [if_pos empty, List.isEmpty_iff.mp empty]
    rfl
  · rw [if_neg empty, Option.toList_some, flatTexts_cons, flatTexts_nil, List.append_nil,
      flatText_withChildren other inhabited]

end Node

namespace BlockScan

open Node

/-- Only line breaks are removed at the end. -/
theorem exists_withoutLastBreaks (nodes : List Node) :
    ∃ breaks, nodes = withoutLastBreaks nodes ++ breaks ∧
      ∀ node ∈ breaks, node.isLineBreak = true := by
  refine ⟨(nodes.reverse.takeWhile Node.isLineBreak).reverse, ?_, ?_⟩
  · rw [withoutLastBreaks, ← List.reverse_append, List.takeWhile_append_dropWhile,
      List.reverse_reverse]
  · intro node member
    exact List.mem_takeWhile_imp (List.mem_reverse.mp member)

/-- Nothing is dropped behind a node that is no line break. -/
theorem withoutLastBreaks_append {last : Node} (solid : last.isLineBreak = false)
    (before : List Node) : withoutLastBreaks (before ++ [last]) = before ++ [last] := by
  simp [withoutLastBreaks, solid]

/-- Without its last line breaks, a sequence keeps its texts. -/
theorem flatTexts_withoutLastBreaks {nodes : List Node}
    (tidy : ∀ node ∈ nodes, node.Everywhere IsTidy) :
    flatTexts (withoutLastBreaks nodes) = flatTexts nodes := by
  obtain ⟨breaks, whole, blank⟩ := exists_withoutLastBreaks nodes
  have none := flatTexts_of_lineBreaks blank fun node member =>
    tidy node (by rw [whole]; exact List.mem_append_right _ member)
  conv => rhs; rw [whole, flatTexts_append, none, List.append_nil]

/-- A blank head leaves nothing, and any other leaves its text. -/
theorem visibleHead_cases (head : Text) :
    visibleHead head = [] ∧ head.IsBlankRun ∨ visibleHead head = [ofText head] := by
  rw [visibleHead]
  by_cases blank : head.strip.isEmpty = true
  · rw [if_pos blank]
    exact Or.inl ⟨rfl, (Text.strip_eq_nil_iff head).mp (List.isEmpty_iff.mp blank)⟩
  · rw [if_neg blank]
    exact Or.inr rfl

/-- What a head leaves ends with no line break. -/
theorem withoutLastBreaks_visibleHead (head : Text) :
    withoutLastBreaks (visibleHead head) = visibleHead head := by
  rcases visibleHead_cases head with ⟨none, _⟩ | same
  · rw [none]
    rfl
  · rw [same]
    rfl

/-- A head leaves at most one node. -/
theorem toList_head?_visibleHead (head : Text) :
    (visibleHead head).head?.toList = visibleHead head := by
  rcases visibleHead_cases head with ⟨none, _⟩ | same
  · rw [none]
    rfl
  · rw [same]
    rfl

/-- What a head leaves is tidy. -/
theorem isTidy_visibleHead (head : Text) :
    ∀ node ∈ visibleHead head, node.Everywhere IsTidy := by
  rcases visibleHead_cases head with ⟨none, _⟩ | same
  · simp [none]
  · rw [same]
    exact List.forall_mem_singleton.mpr (isTidy_ofText head)

/-- What stands before a marker stays, but for blanks. -/
theorem exists_visibleHead (head : Text) :
    ∃ blanks, blanks.IsBlankRun ∧ head = flatTexts (visibleHead head) ++ blanks := by
  rcases visibleHead_cases head with ⟨none, blank⟩ | same
  · exact ⟨head, blank, by simp [none]⟩
  · exact ⟨[], Text.isBlankRun_nil, by simp [same]⟩

/-! ## Openers -/

/-- A value that ends with an opener line is what stands before this line, and the line between
    blanks. -/
theorem exists_of_openerOfValue {value line head : Text} {opener : BlockOpener}
    (found : openerOfValue? value = some (opener, line, head)) :
    ∃ before after, before.IsBlankRun ∧ after.IsBlankRun ∧
      value = flatTexts (visibleHead head) ++ (before ++ (line ++ after)) := by
  obtain ⟨_, _, same⟩ := Option.map_eq_some_iff.mp found
  simp only [Prod.mk.injEq] at same
  obtain ⟨_, rfl, rfl⟩ := same
  obtain ⟨before, after, leading, trailing, whole⟩ := Text.exists_around_lastLine value
  obtain ⟨blanks, blank, head⟩ := exists_visibleHead (value.stripEnd.lastLine.1.getD [])
  refine ⟨blanks ++ before, after, List.forall_mem_append.mpr ⟨blank, leading⟩, trailing, ?_⟩
  conv => lhs; rw [whole, head]
  simp

/-- What is left of a paragraph before an opener has the texts that stand before the opener. -/
theorem flatTexts_leading {nodes : List Node} (tidy : ∀ node ∈ nodes, node.Everywhere IsTidy) :
    flatTexts (if (withoutLastBreaks nodes).isEmpty then none
      else some (paragraph (withoutLastBreaks nodes))).toList = flatTexts nodes := by
  rw [← flatTexts_withoutLastBreaks tidy]
  by_cases empty : (withoutLastBreaks nodes).isEmpty = true
  · rw [if_pos empty, List.isEmpty_iff.mp empty]
    rfl
  · rw [if_neg empty]
    simp

/-- The texts of an opener unit are those of what stands before the opener and that of its marker,
    but for blanks around the marker. -/
theorem flatText_openerUnit {unit : Node} (tidy : unit.Everywhere IsTidy) {found : OpenerUnit}
    (opened : openerUnit? unit = some found) :
    ∃ before after, before.IsBlankRun ∧ after.IsBlankRun ∧
      unit.flatText =
        flatTexts found.leading.toList ++ (before ++ (found.marker.flatText ++ after)) := by
  rw [openerUnit?] at opened
  split at opened
  · rename_i isText
    obtain ⟨⟨opener, line, head⟩, read, rfl⟩ := Option.map_eq_some_iff.mp opened
    obtain ⟨before, after, leading, trailing, whole⟩ := exists_of_openerOfValue read
    refine ⟨before, after, leading, trailing, ?_⟩
    simp only [flatText_of_isText isText (tidy.here.childless isText), whole,
      withoutLastBreaks_visibleHead, toList_head?_visibleHead, flatText_ofText]
  · rename_i other
    split at opened
    · obtain ⟨last, isLast, mapped⟩ := Option.bind_eq_some_iff.mp opened
      obtain ⟨⟨opener, line, head⟩, read, rfl⟩ := Option.map_eq_some_iff.mp mapped
      obtain ⟨before, after, leading, trailing, whole⟩ := exists_of_openerOfValue read
      obtain ⟨ends, isText⟩ := Option.filter_eq_some_iff.mp isLast
      obtain ⟨first, parts⟩ := List.getLast?_eq_some_iff.mp ends
      have childless := (tidy.inside last (by simp [parts])).here.childless isText
      have others : ∀ child ∈ first, child.Everywhere IsTidy :=
        fun child member => tidy.inside child (by simp [parts, member])
      have tidies : ∀ node ∈ first ++ visibleHead head, node.Everywhere IsTidy :=
        List.forall_mem_append.mpr ⟨others, isTidy_visibleHead head⟩
      refine ⟨before, after, leading, trailing, ?_⟩
      simp only [parts, List.dropLast_concat, flatTexts_leading tidies]
      rw [flatText_of_isText_eq_false (Bool.eq_false_iff.mpr other), parts, flatTexts_append,
        flatTexts_cons, flatText_of_isText isText childless, whole]
      simp
    · simp at opened

/-! ## Closers -/

/-- What is left of a unit without the closer at its end, which stands in `trail`: nothing or the
    text before it, of a text; and of another node the same with its last child, where line breaks
    before a child that is gone go too. -/
inductive CutAtEnd (trail : Text) : Node → Option Node → Prop where
  | text {node : Node} {residual : Option Node} (isText : node.isText = true)
      (value : node.valueText = flatTexts residual.toList ++ trail)
      (left : residual = none ∨ ∃ head, residual = some (ofText head)) :
      CutAtEnd trail node residual
  | dropped {node last : Node} {kept breaks : List Node} (other : node.isText = false)
      (parts : node.children = kept ++ breaks ++ [last])
      (blank : ∀ child ∈ breaks, child.isLineBreak = true) (inside : CutAtEnd trail last none) :
      CutAtEnd trail node (node.remainder kept)
  | shortened {node last rest : Node} {before : List Node} (other : node.isText = false)
      (parts : node.children = before ++ [last]) (inside : CutAtEnd trail last (some rest)) :
      CutAtEnd trail node (some (node.withChildren (before ++ [rest])))

namespace CutAtEnd

variable {trail : Text} {node : Node} {residual : Option Node}

/-- The texts of a unit are those of what is left, and the trail. -/
theorem flatText_eq (cut : CutAtEnd trail node residual) (tidy : node.Everywhere IsTidy) :
    node.flatText = flatTexts residual.toList ++ trail := by
  induction cut with
  | text isText value left =>
    rw [flatText_of_isText isText (tidy.here.childless isText), value]
  | @dropped node last kept breaks other parts blank inside inductionHypothesis =>
    have texts := inductionHypothesis (tidy.inside last (by simp [parts]))
    have between : ∀ child ∈ breaks, child.Everywhere IsTidy :=
      fun child member => tidy.inside child (by simp [parts, member])
    rw [flatTexts_remainder other (by simp [parts]), flatText_of_isText_eq_false other, parts,
      flatTexts_append, flatTexts_append, flatTexts_of_lineBreaks blank between]
    simpa using texts
  | @shortened node last rest before other parts inside inductionHypothesis =>
    have texts := inductionHypothesis (tidy.inside last (by simp [parts]))
    rw [Option.toList_some, flatTexts_cons, flatText_withChildren other (by simp [parts]),
      flatText_of_isText_eq_false other, parts]
    simpa using texts

/-- What is left of a unit is a line break only if the unit is one. -/
theorem isLineBreak_of_mem (cut : CutAtEnd trail node residual) :
    ∀ rest ∈ residual, rest.isLineBreak = true → node.isLineBreak = true := by
  intro rest present isBreak
  cases cut with
  | text isText value left =>
    rcases left with rfl | ⟨head, rfl⟩
    · simp at present
    · rw [Option.mem_some_iff] at present
      subst present
      exact absurd isBreak (by decide : ¬(textKind == lineBreakKind) = true)
  | @dropped _ last kept breaks other parts blank inside =>
    rw [remainder] at present
    split at present
    · simp at present
    · rw [Option.mem_some_iff] at present
      rwa [← present, isLineBreak, kind_withChildren] at isBreak
  | shortened other parts inside =>
    rw [Option.mem_some_iff] at present
    rwa [← present, isLineBreak, kind_withChildren] at isBreak

/-- What is left of a unit is no line break, as a line break holds no closer. -/
theorem isLineBreak_eq_false {rest : Node} (cut : CutAtEnd trail node (some rest))
    (tidy : node.Everywhere IsTidy) (marks : trail.strip = Span.marker) :
    rest.isLineBreak = false := by
  rw [← Bool.not_eq_true]
  intro isBreak
  have texts := cut.flatText_eq tidy
  rw [tidy.here.blank (cut.isLineBreak_of_mem rest rfl isBreak)] at texts
  have empty : trail = [] := (List.append_eq_nil_iff.mp texts.symm).2
  rw [empty] at marks
  exact absurd marks (by decide)

/-- A closer at the end of the last child is at the end of the node. -/
theorem around {last : Node} {before : List Node} (cut : CutAtEnd trail last residual)
    (tidy : node.Everywhere IsTidy) (marks : trail.strip = Span.marker)
    (other : node.isText = false) (parts : node.children = before ++ [last]) :
    CutAtEnd trail node (node.remainder (withoutLastBreaks (before ++ residual.toList))) := by
  cases residual with
  | none =>
    obtain ⟨breaks, whole, blank⟩ := exists_withoutLastBreaks before
    rw [Option.toList_none, List.append_nil]
    exact .dropped other (by rw [parts, ← whole]) blank cut
  | some rest =>
    have solid := cut.isLineBreak_eq_false (tidy.inside last (by simp [parts])) marks
    rw [Option.toList_some, withoutLastBreaks_append solid, remainder, if_neg (by simp)]
    exact .shortened other parts cut

end CutAtEnd

/-- A text that ends with a closer is cut behind what stands before it. -/
theorem cutAtEnd_of_closerOfValue {node : Node} (isText : node.isText = true)
    {residual : Option Node} (found : closerOfValue? node.valueText = some residual) :
    ∃ trail, trail.strip = Span.marker ∧ CutAtEnd trail node residual := by
  rw [closerOfValue?] at found
  split at found
  · rename_i closes
    rw [Option.some.injEq] at found
    subst found
    rw [isBlockCloser, Text.strip_stripEnd, beq_iff_eq] at closes
    exact ⟨node.valueText, closes, .text isText rfl (Or.inl rfl)⟩
  · obtain ⟨before, after, leading, trailing, whole⟩ := Text.exists_around_lastLine node.valueText
    split at found
    · simp at found
    · rename_i head line parts
      split at found
      · rename_i closes
        rw [Option.some.injEq] at found
        rw [isBlockCloser, beq_iff_eq] at closes
        rw [parts, Option.getD_some] at whole
        obtain ⟨blanks, blank, shown⟩ := exists_visibleHead head
        -- a head of blanks only is not kept, so it is part of the trail
        have stripped := Text.strip_blanks_around (blanks ++ before) line after
          (List.forall_mem_append.mpr ⟨blank, leading⟩) trailing
        refine ⟨blanks ++ before ++ (line ++ after), stripped.trans closes, ?_⟩
        subst found
        refine .text isText ?_ ?_
        · rw [toList_head?_visibleHead, whole]
          conv => lhs; rw [shown]
          simp
        · rcases visibleHead_cases head with ⟨none, _⟩ | same
          · exact Or.inl (by rw [none]; rfl)
          · exact Or.inr ⟨head, by rw [same]; rfl⟩
      · simp at found

mutual

/-- A unit that ends with a closer is cut at its end. -/
theorem cutAtEnd_of_closerUnit : ∀ {unit : Node} {residual : Option Node},
    unit.Everywhere IsTidy → closerUnit? unit = some residual →
    ∃ trail, trail.strip = Span.marker ∧ CutAtEnd trail unit residual
  | .element kind value children data, residual, tidy, found => by
    unfold closerUnit? at found
    split at found
    · rename_i same
      have isText : (Node.element kind value children data).isText = true := beq_iff_eq.mpr same
      exact cutAtEnd_of_closerOfValue isText found
    · rename_i other
      obtain ⟨kept, closes, rfl⟩ := Option.map_eq_some_iff.mp found
      obtain ⟨before, last, left, trail, parts, rfl, marks, cut⟩ :=
        cutAtEnd_of_closerOfLast tidy.inside closes
      have here : (Node.element kind value children data).isText = false := by
        simpa [isText, Node.kind] using other
      exact ⟨trail, marks, cut.around tidy marks here parts⟩
  | .hiddenInline _ _ _, _, _, found => by simp [closerUnit?] at found
  | .hiddenBlock attributes label children, residual, tidy, found => by
    unfold closerUnit? at found
    obtain ⟨kept, closes, rfl⟩ := Option.map_eq_some_iff.mp found
    obtain ⟨before, last, left, trail, parts, rfl, marks, cut⟩ :=
      cutAtEnd_of_closerOfLast tidy.inside closes
    exact ⟨trail, marks, cut.around tidy marks (Node.isText_of_isHidden rfl) parts⟩

/-- Units that end with a closer are cut at the end of the last one. -/
theorem cutAtEnd_of_closerOfLast : ∀ {units kept : List Node},
    (∀ unit ∈ units, unit.Everywhere IsTidy) → closerOfLast? units = some kept →
    ∃ before last residual trail, units = before ++ [last] ∧ kept = before ++ residual.toList ∧
      trail.strip = Span.marker ∧ CutAtEnd trail last residual
  | [], _, _, found => by simp [closerOfLast?] at found
  | [last], kept, tidy, found => by
    unfold closerOfLast? at found
    obtain ⟨residual, closes, rfl⟩ := Option.map_eq_some_iff.mp found
    obtain ⟨trail, marks, cut⟩ := cutAtEnd_of_closerUnit (tidy last List.mem_cons_self) closes
    exact ⟨[], last, residual, trail, rfl, rfl, marks, cut⟩
  | first :: second :: rest, kept, tidy, found => by
    unfold closerOfLast? at found
    obtain ⟨later, closes, rfl⟩ := Option.map_eq_some_iff.mp found
    obtain ⟨before, last, residual, trail, parts, rfl, marks, cut⟩ :=
      cutAtEnd_of_closerOfLast (fun unit member => tidy unit (List.mem_cons_of_mem first member))
        closes
    exact ⟨first :: before, last, residual, trail, by rw [parts]; rfl, rfl, marks, cut⟩

end

/-- Taking a marker from a unit removes the marker, blanks around it, and nothing else. Before an
    opener stays what stands there, and the unit of the marker has the line of the opener. In front
    of a closer stays what stands there, and the unit is changed only along its last children.

    Proof: an opener is taken from the last text of its unit. A closer is taken along the last
    children, by induction on the unit. -/
theorem flatText_without_marker (unit : Node) (tidy : unit.Everywhere IsTidy) :
    (∀ found, openerUnit? unit = some found →
      ∃ before after, before.IsBlankRun ∧ after.IsBlankRun ∧
        unit.flatText =
          flatTexts found.leading.toList ++ (before ++ (found.marker.flatText ++ after))) ∧
    ∀ residual, closerUnit? unit = some residual →
      ∃ trail, trail.strip = Span.marker ∧ unit.flatText = flatTexts residual.toList ++ trail ∧
        CutAtEnd trail unit residual := by
  constructor
  · intro found opened
    exact flatText_openerUnit tidy opened
  · intro residual closes
    obtain ⟨trail, marks, cut⟩ := cutAtEnd_of_closerUnit tidy closes
    exact ⟨trail, marks, cut.flatText_eq tidy, cut⟩

/-- A paragraph that ends with an opener, on a line of its own behind a blank line. -/
def openedParagraph : Node :=
  paragraph [ofText "a".toList, lineBreak, ofText " \n:::hide\x7bk\x7d ".toList]

/-- A quote that ends with a closer, below a hidden block that holds nothing else. -/
def closedQuote : Node :=
  .element "blockquote".toList .null
    [paragraph [ofText "b".toList], lineBreak,
      .hiddenBlock [] (.string []) [lineBreak, paragraph [ofText " \n ::: ".toList]]] []

/-- The opener of this paragraph and the closer below the hidden block of this quote are taken away,
    and the letters in front of them stay. -/
theorem flatText_without_marker_nested :
    (∃ before after, before.IsBlankRun ∧ after.IsBlankRun ∧
      openedParagraph.flatText = "a".toList ++ (before ++ (":::hide\x7bk\x7d".toList ++ after))) ∧
    ∃ trail, trail.strip = Span.marker ∧ closedQuote.flatText = "b".toList ++ trail ∧
      CutAtEnd trail closedQuote
        (some (.element "blockquote".toList .null [paragraph [ofText "b".toList]] [])) := by
  have openedTidy : openedParagraph.Everywhere IsTidy := by
    apply isTidy_around rfl rfl
    simp only [openedParagraph, paragraph, children, List.forall_mem_cons]
    exact ⟨isTidy_ofText _, isTidy_lineBreak, isTidy_ofText _, by simp⟩
  have lineTidy (line : Text) : (paragraph [ofText line]).Everywhere IsTidy :=
    isTidy_around rfl rfl (List.forall_mem_singleton.mpr (isTidy_ofText line))
  have closedTidy : closedQuote.Everywhere IsTidy := by
    apply isTidy_around rfl rfl
    simp only [closedQuote, children, List.forall_mem_cons]
    refine ⟨lineTidy _, isTidy_lineBreak, isTidy_around rfl rfl ?_, by simp⟩
    simp only [children, List.forall_mem_cons]
    exact ⟨isTidy_lineBreak, lineTidy _, by simp⟩
  constructor
  · exact (flatText_without_marker openedParagraph openedTidy).1 _ rfl
  · exact (flatText_without_marker closedQuote closedTidy).2 _ rfl

end BlockScan

end HiddenContent
