import HiddenContent.Proofs.Rendering
import HiddenContent.Resolve
import Mathlib

/-!
# Where the markup of a rendering comes from

Every tag begins with an opening angle bracket. Text, labels, payloads, attribute values and the
names of foreign kinds are escaped where they enter HTML, so they bring none. The keys of
attributes are not: the name of a property is made from the key as the author wrote it. So the
brackets of a rendering are those of the tags that the handlers write, a number that the shape of
the note decides, and those that stand in the keys of the hidden nodes that are shown. Two notes
of one shape have equally many exactly when their shown keys hold equally many.
-/

namespace HiddenContent

namespace Node

mutual

/-- Two nodes of one kind around one structure, with equally many attributes and payloads that are
    both empty or both not. Texts, labels, keys, values and the names of foreign kinds may
    differ. -/
inductive SameShape : Node → Node → Prop where
  | element {kind other value otherValue : Json} {children others : List Node}
      {data otherData : Json.Members}
      (form : Render.formOf kind.text = Render.formOf other.text)
      (inside : SameShapes children others) :
      SameShape (.element kind value children data) (.element other otherValue others otherData)
  | hiddenInline {attributes others : Json.Members} {payload otherPayload label otherLabel : Json}
      (size : attributes.length = others.length)
      (alike : payload.text.isEmpty = otherPayload.text.isEmpty) :
      SameShape (.hiddenInline attributes payload label)
        (.hiddenInline others otherPayload otherLabel)
  | hiddenBlock {attributes otherAttributes : Json.Members} {label otherLabel : Json}
      {children others : List Node} (size : attributes.length = otherAttributes.length)
      (inside : SameShapes children others) :
      SameShape (.hiddenBlock attributes label children)
        (.hiddenBlock otherAttributes otherLabel others)

/-- Two sequences of nodes that have the same shape one by one. -/
inductive SameShapes : List Node → List Node → Prop where
  | nil : SameShapes [] []
  | cons {first second : Node} {rest others : List Node} (head : SameShape first second)
      (tail : SameShapes rest others) : SameShapes (first :: rest) (second :: others)

end

/-- Sequences of one shape are both empty or both not. -/
theorem SameShapes.isEmpty_eq {first second : List Node} (same : SameShapes first second) :
    first.isEmpty = second.isEmpty := by
  cases same with
  | nil => rfl
  | cons => rfl

end Node

namespace Html

/-- An escaped text opens no tag. -/
theorem count_escape (text : Text) : (escape text).count '<' = 0 := by
  have plain (c : Char) : '<' ∉ escapeCharacter c := by
    by_cases bracket : c = '<'
    · subst bracket
      decide
    · have kept : '<' ∉ [c] := by simpa using Ne.symm bracket
      unfold escapeCharacter escapeTagCharacter
      split_ifs
      · decide
      · decide
      · decide
      · decide
      · decide
      · exact kept
  rw [List.count_eq_zero, escape, List.mem_flatMap]
  rintro ⟨c, _, inside⟩
  exact plain c inside

/-- Properties open as many tags as their names do. -/
theorem count_properties (pairs : Mapping Text) :
    (properties pairs).count '<' = pairs.keys.flatten.count '<' := by
  induction pairs with
  | nil => rfl
  | cons first rest inductionHypothesis =>
    obtain ⟨name, value⟩ := first
    have parts : properties ((name, value) :: rest) =
        [' '] ++ name ++ ['=', '\x22'] ++ escape value ++ ['\x22'] ++ properties rest := rfl
    simp [parts, inductionHypothesis, count_escape]

/-- An element opens its two tags, and what its names and its body open. -/
theorem count_element (tag : Text) (plain : '<' ∉ tag) (pairs : Mapping Text) (body : Text) :
    (element tag pairs body).count '<' =
      2 + pairs.keys.flatten.count '<' + body.count '<' := by
  have none := List.count_eq_zero.mpr plain
  simp only [element, List.count_append, count_properties, none]
  simp
  omega

end Html

namespace Mapping

/-- Assigning a name without a bracket adds none to the names. -/
theorem count_keys_insert (mapping : Mapping Text) (key value : Text) (plain : '<' ∉ key) :
    (mapping.insert key value).keys.flatten.count '<' = mapping.keys.flatten.count '<' := by
  rw [keys_insert]
  split
  · rfl
  · simp [List.count_eq_zero.mpr plain]

/-- Forgetting a name without a bracket takes none from the names. -/
theorem count_keys_erase (mapping : Mapping Text) (key : Text) (plain : '<' ∉ key) :
    (mapping.erase key).keys.flatten.count '<' = mapping.keys.flatten.count '<' := by
  rw [keys_erase]
  induction mapping.keys with
  | nil => rfl
  | cons first rest inductionHypothesis =>
    by_cases same : first = key
    · simp [same, inductionHypothesis, List.count_eq_zero.mpr plain]
    · simp [same, inductionHypothesis]

end Mapping

namespace Render

/-- The name of an attribute holds the brackets of its key. -/
theorem count_dataName (key : Text) : (dataName key).count '<' = key.count '<' := by
  have plain : "data-".toList.count '<' = 0 := by decide
  unfold dataName
  rw [List.count_append, plain, Nat.zero_add]

/-- The names of data properties hold the brackets of the keys, each key once. -/
theorem count_dataProperties (attributes : Attributes) :
    (dataProperties attributes).keys.flatten.count '<' =
      (Mapping.keys attributes).eraseDups.flatten.count '<' := by
  have apart : Function.Injective dataName := fun first second same =>
    List.append_cancel_left same
  have names : (dataProperties attributes).keys =
      (Mapping.keys attributes).eraseDups.map dataName := by
    rw [dataProperties, Mapping.keys_ofList, ← Mapping.eraseDups_map apart, Mapping.keys,
      List.map_map, List.map_map]
    rfl
  rw [names]
  induction (Mapping.keys attributes).eraseDups with
  | nil => rfl
  | cons first rest inductionHypothesis =>
    rw [List.map_cons, List.flatten_cons, List.flatten_cons, List.count_append, List.count_append,
      inductionHypothesis, count_dataName]

/-- The label of a hidden node stands between two tags. -/
theorem count_labelBody (label : Text) : (labelBody label).count '<' = 2 := by
  have opening : "<span class=\"hidden-label\">".toList.count '<' = 1 := by decide
  have closing : "</span>".toList.count '<' = 1 := by decide
  unfold labelBody
  rw [List.count_append, List.count_append, Html.count_escape, opening, closing]

/-- The fixed names of a hidden run hold no bracket. -/
theorem count_inlineProperties (view : View) (attributes : Attributes) (payload label : Text) :
    (inlineProperties view attributes payload label).keys.flatten.count '<' =
      (Mapping.keys attributes).eraseDups.flatten.count '<' := by
  have mark : '<' ∉ inlineProperty := by decide
  have shown : '<' ∉ labelProperty := by decide
  have content : '<' ∉ contentProperty := by decide
  rw [← count_dataProperties, inlineProperties]
  -- the content is assigned when it is revealed and forgotten otherwise
  split
  · rw [Mapping.count_keys_insert _ _ _ content, Mapping.count_keys_insert _ _ _ shown,
      Mapping.count_keys_insert _ _ _ mark]
  · rw [Mapping.count_keys_erase _ _ content, Mapping.count_keys_insert _ _ _ shown,
      Mapping.count_keys_insert _ _ _ mark]

/-- The fixed names of a hidden block hold no bracket. -/
theorem count_blockProperties (view : View) (attributes : Attributes) (label : Text) :
    (blockProperties view attributes label).keys.flatten.count '<' =
      (Mapping.keys attributes).eraseDups.flatten.count '<' := by
  have mark : '<' ∉ blockProperty := by decide
  have shown : '<' ∉ labelProperty := by decide
  rw [← count_dataProperties, blockProperties, Mapping.count_keys_insert _ _ _ shown,
    Mapping.count_keys_insert _ _ _ mark]

/-- A hidden run opens its own tags, those around a payload that is shown, and what its keys
    hold. -/
theorem count_renderInline (view : View) (attributes : Attributes) (payload label : Text) :
    (renderInline view attributes payload label).count '<' =
      4 + (if view.reveal && !payload.isEmpty then 2 else 0) +
        (Mapping.keys attributes).eraseDups.flatten.count '<' := by
  have opening : "<span class=\"hidden-payload\">".toList.count '<' = 1 := by decide
  have closing : "</span>".toList.count '<' = 1 := by decide
  unfold renderInline
  rw [Html.count_element _ (by decide), count_inlineProperties, List.count_append,
    count_labelBody]
  split
  · rw [List.count_append, List.count_append, Html.count_escape, opening, closing]
    omega
  · rw [List.count_nil]
    omega

/-- A hidden block opens its own tags, those around children that are shown, and what its keys
    hold. -/
theorem count_renderBlock (view : View) (attributes : Attributes) (label : Text)
    (children : List Node) (body : Text) :
    (renderBlock view attributes label children body).count '<' =
      4 + (if view.reveal && !children.isEmpty then 2 + body.count '<' else 0) +
        (Mapping.keys attributes).eraseDups.flatten.count '<' := by
  have opening : "<div class=\"hidden-payload\">".toList.count '<' = 1 := by decide
  have closing : "</div>".toList.count '<' = 1 := by decide
  unfold renderBlock
  rw [Html.count_element _ (by decide), count_blockProperties, List.count_append,
    count_labelBody]
  split
  · rw [List.count_append, List.count_append, opening, closing]
    omega
  · rw [List.count_nil]
    omega

/-! ## The brackets of a note -/

mutual

/-- The number of tags that the handlers write for a node. -/
def tags (view : View) : Node → Nat
  | .element kind _ children _ =>
    match formOf kind.text with
    | .text => 0
    | .lineBreak => 1
    | .paragraph | .other => 2 + tagsAll view children
  | .hiddenInline _ payload _ => 4 + if view.reveal && !payload.text.isEmpty then 2 else 0
  | .hiddenBlock _ _ children =>
    4 + if view.reveal && !children.isEmpty then 2 + tagsAll view children else 0

/-- The number of tags that the handlers write for a sequence. -/
def tagsAll (view : View) : List Node → Nat
  | [] => 0
  | unit :: rest => tags view unit + tagsAll view rest

end

mutual

/-- The keys that become names of properties: those of the hidden nodes that are shown, each key
    once for its node. -/
def writtenKeys (view : View) : Node → List Text
  | .element kind _ children _ =>
    match formOf kind.text with
    | .text | .lineBreak => []
    | .paragraph | .other => writtenKeysAll view children
  | .hiddenInline attributes _ _ => (Mapping.keys attributes.texts).eraseDups
  | .hiddenBlock attributes _ children =>
    (Mapping.keys attributes.texts).eraseDups ++
      if view.reveal then writtenKeysAll view children else []

/-- The keys of a sequence that become names of properties. -/
def writtenKeysAll (view : View) : List Node → List Text
  | [] => []
  | unit :: rest => writtenKeys view unit ++ writtenKeysAll view rest

end

mutual

/-- The brackets of a node are those of its tags and those in its written keys. -/
theorem count_node (view : View) : (unit : Node) →
    (node .builtin view unit).count '<' =
      tags view unit + (writtenKeys view unit).flatten.count '<'
  | .element kind value children data => by
    have inside := count_nodes view children
    rw [node_element, tags, writtenKeys]
    cases formOf kind.text with
    | text => exact Html.count_escape _
    | lineBreak => exact (by decide : "<br>".toList.count '<' = 1)
    | paragraph =>
      have opening : "<p>".toList.count '<' = 1 := by decide
      have closing : "</p>".toList.count '<' = 1 := by decide
      simp only [List.count_append, opening, closing, inside]
      omega
    | other =>
      have opening : "<div class=\"node-".toList.count '<' = 1 := by decide
      have opened : "\">".toList.count '<' = 0 := by decide
      have closing : "</div>".toList.count '<' = 1 := by decide
      simp only [List.count_append, opening, opened, closing, Html.count_escape]
      -- without children the division is around the value, which is escaped
      cases children with
      | nil => simp [Html.count_escape, tagsAll, writtenKeysAll]
      | cons first rest =>
        simp only [List.isEmpty_cons, Bool.false_eq_true, if_false, inside]
        omega
  | .hiddenInline attributes payload label => by
    rw [node_hiddenInline, count_renderInline, tags, writtenKeys]
  | .hiddenBlock attributes label children => by
    have inside := count_nodes view children
    rw [node_hiddenBlock, count_renderBlock, tags, writtenKeys, List.flatten_append,
      List.count_append]
    cases reveal : view.reveal with
    | false => simp
    | true =>
      cases children with
      | nil => simp [writtenKeysAll]
      | cons first rest =>
        simp only [List.isEmpty_cons, Bool.not_false, Bool.and_true, if_true, inside]
        omega

/-- The brackets of a sequence are those of its tags and those in its written keys. -/
theorem count_nodes (view : View) : (units : List Node) →
    (nodes .builtin view units).count '<' =
      tagsAll view units + (writtenKeysAll view units).flatten.count '<'
  | [] => rfl
  | unit :: rest => by
    have first := count_node view unit
    have later := count_nodes view rest
    rw [nodes, List.count_append, first, later, tagsAll, writtenKeysAll, List.flatten_append,
      List.count_append]
    omega

end

mutual

/-- Nodes of one shape have equally many tags. -/
theorem tags_eq (view : View) : {first second : Node} → Node.SameShape first second →
    tags view first = tags view second
  | _, _, .element form inside => by
    rw [tags, tags, form, tagsAll_eq view inside]
  | _, _, .hiddenInline _ alike => by
    rw [tags, tags, alike]
  | _, _, .hiddenBlock _ inside => by
    rw [tags, tags, inside.isEmpty_eq, tagsAll_eq view inside]

/-- Sequences of one shape have equally many tags. -/
theorem tagsAll_eq (view : View) : {first second : List Node} → Node.SameShapes first second →
    tagsAll view first = tagsAll view second
  | _, _, .nil => rfl
  | _, _, .cons head tail => by
    rw [tagsAll, tagsAll, tags_eq view head, tagsAll_eq view tail]

end

/-- Two notes of one shape are rendered with the same tags, and the other brackets are those in
    the keys that are written as names. So the renderings hold equally many brackets exactly when
    the written keys do, whatever the texts, payloads, labels, values and foreign names are.

    Proof: the brackets of a rendering are counted node by node. A note of the same shape has the
    same tags, and an escaped text brings no bracket. -/
theorem count_nodes_eq_iff (view : View) {first second : List Node}
    (same : Node.SameShapes first second) :
    (nodes .builtin view first).count '<' =
        tagsAll view first + (writtenKeysAll view first).flatten.count '<' ∧
      (nodes .builtin view second).count '<' =
        tagsAll view first + (writtenKeysAll view second).flatten.count '<' ∧
      ((nodes .builtin view first).count '<' = (nodes .builtin view second).count '<' ↔
        (writtenKeysAll view first).flatten.count '<' =
          (writtenKeysAll view second).flatten.count '<') := by
  have firstCount := count_nodes view first
  have secondCount := count_nodes view second
  rw [← tagsAll_eq view same] at secondCount
  refine ⟨firstCount, secondCount, ?_⟩
  rw [firstCount, secondCount]
  exact Nat.add_right_inj

/-- Brackets in a text, a payload, a label, a value and the name of a foreign kind add none to the
    rendering, revealed as it is. -/
theorem count_nodes_eq_iff_escaped :
    Node.SameShapes
        [.element ['<'] .null [Node.ofText ['<']] [],
          .hiddenBlock [(['k'], ['<'])] ['<'] [.hiddenInline [(['a'], ['<'])] ['<'] ['<']]]
        [.element ['q'] (.string []) [Node.ofText ['t']] [],
          .hiddenBlock [(['b'], .string [])] (.string [])
            [.hiddenInline [(['c'], ['v'])] ['s'] (.string [])]] ∧
      (nodes .builtin { reveal := true }
        [.element ['<'] .null [Node.ofText ['<']] [],
          .hiddenBlock [(['k'], ['<'])] ['<']
            [.hiddenInline [(['a'], ['<'])] ['<'] ['<']]]).count '<' =
        (nodes .builtin { reveal := true }
          [.element ['q'] (.string []) [Node.ofText ['t']] [],
            .hiddenBlock [(['b'], .string [])] (.string [])
              [.hiddenInline [(['c'], ['v'])] ['s'] (.string [])]]).count '<' := by
  have same : Node.SameShapes
      [.element ['<'] .null [Node.ofText ['<']] [],
        .hiddenBlock [(['k'], ['<'])] ['<'] [.hiddenInline [(['a'], ['<'])] ['<'] ['<']]]
      [.element ['q'] (.string []) [Node.ofText ['t']] [],
        .hiddenBlock [(['b'], .string [])] (.string [])
          [.hiddenInline [(['c'], ['v'])] ['s'] (.string [])]] :=
    .cons (.element (by decide) (.cons (.element rfl .nil) .nil))
      (.cons (.hiddenBlock rfl (.cons (.hiddenInline rfl rfl) .nil)) .nil)
  exact ⟨same, (count_nodes_eq_iff { reveal := true } same).2.2.mpr (by decide)⟩

/-- A key with a bracket opens a tag: two notes of one shape, the second with one bracket more. -/
theorem count_nodes_ne :
    Node.SameShapes (Resolve.document {} (segment ":::hide\x7bb=1\x7d x:::".toList))
        (Resolve.document {} (segment ":::hide\x7b<b=1\x7d x:::".toList)) ∧
      (nodes .builtin {}
          (Resolve.document {} (segment ":::hide\x7bb=1\x7d x:::".toList))).count '<' ≠
        (nodes .builtin {}
          (Resolve.document {} (segment ":::hide\x7b<b=1\x7d x:::".toList))).count '<' := by
  have plain : Resolve.document {} (segment ":::hide\x7bb=1\x7d x:::".toList) =
      [Node.paragraph [.hiddenInline [(['b'], ['1'])] ['x'] (.string [])]] := by cbv
  have bracket : Resolve.document {} (segment ":::hide\x7b<b=1\x7d x:::".toList) =
      [Node.paragraph [.hiddenInline [(['<', 'b'], ['1'])] ['x'] (.string [])]] := by cbv
  rw [plain, bracket, count_nodes, count_nodes]
  exact ⟨.cons (.element rfl (.cons (.hiddenInline rfl rfl) .nil)) .nil, by decide⟩

end Render

end HiddenContent
