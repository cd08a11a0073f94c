import HiddenContent.Node.Json
import HiddenContent.Proofs.AuthoredUnits
import HiddenContent.Proofs.JsonNames

/-!
# A node that was read is written and read again

Nodes are read in three forms: elements with their data, hidden runs and hidden blocks. The object
that a node of one form is written as has the members of that form in their order, and reading finds
each of them again: the data of an element has no name that means something, and attributes have
each name once.
-/

namespace HiddenContent

namespace Node

open Json (Members)

/-! ## Children -/

/-- Only the first member of its name holds the children. -/
theorem readChildren_eq (members : Members) :
    readChildren members =
      match members.lookup memberChildren with
      | none => .ok []
      | some value => readCollection value := by
  induction members with
  | nil => rfl
  | cons member rest inductionHypothesis =>
    obtain ⟨name, value⟩ := member
    rw [readChildren]
    by_cases same : name = memberChildren
    · simp [same]
    · rw [if_neg same, inductionHypothesis, List.lookup_cons, beq_false_of_ne (Ne.symm same)]

/-- Nodes are written one by one. -/
theorem toJsons_eq_map (nodes : List Node) : toJsons nodes = nodes.map toJson := by
  induction nodes with
  | nil => rfl
  | cons node rest inductionHypothesis => rw [toJsons, inductionHypothesis, List.map_cons]

/-- Nodes that are read back one by one are read back as a list. -/
theorem readNodes_toJsons {nodes : List Node}
    (back : ∀ node ∈ nodes, ofJson? (toJson node) = .ok node) :
    readNodes (toJsons nodes) = .ok nodes := by
  induction nodes with
  | nil => rfl
  | cons node rest inductionHypothesis =>
    obtain ⟨here, later⟩ := List.forall_mem_cons.mp back
    rw [toJsons, readNodes, here, inductionHypothesis later]
    rfl

/-! ## Elements -/

/-- Data that no reading takes for anything else: foreign names, each once. -/
structure IsForeignData (others : Members) : Prop where
  foreign : ∀ member ∈ others, isForeign member.1 = true
  distinct : (Json.object others).HasDistinctNames

/-- An element without further data has no name to lose. -/
theorem isForeignData_nil : IsForeignData [] where
  foreign := by simp
  distinct := Json.hasDistinctNames_object.mpr ⟨List.Pairwise.nil, by simp⟩

/-- Foreign data holds nothing under a name with a meaning of its own. -/
theorem IsForeignData.lookup_eq_none {others : Members} (data : IsForeignData others)
    {name : Json.Name} (meant : isForeign name = false) : others.lookup name = none := by
  rw [List.lookup_eq_none_iff]
  intro member inside
  rw [bne_iff_ne]
  rintro rfl
  rw [data.foreign member inside] at meant
  exact absurd meant (by simp)

/-- The member of the children, when there are any. -/
def childrenMembers (children : List Node) : Members :=
  if children.isEmpty then [] else [(memberChildren, .array (toJsons children))]

/-- What an element has beside its further data, in the order of writing. -/
def ownMembers (kind value : Json) (children : List Node) : Members :=
  (memberType, kind) :: (valueMembers value ++ childrenMembers children)

/-- An element has its kind, perhaps its value and perhaps its children as members. -/
theorem names_ownMembers (kind value : Json) (children : List Node) :
    (ownMembers kind value children).map Prod.fst ∈
      [[memberType], [memberType, memberValue], [memberType, memberChildren],
        [memberType, memberValue, memberChildren]] := by
  by_cases empty : children.isEmpty = true
  · cases value <;> simp [ownMembers, valueMembers, childrenMembers, empty]
  · cases value <;> simp [ownMembers, valueMembers, childrenMembers, empty]

/-- What an element has beside its further data has no foreign name, and none twice. -/
theorem areDistinct_ownMembers (kind value : Json) (children : List Node) :
    (ownMembers kind value children).AreDistinct ∧
      ∀ member ∈ ownMembers kind value children, isForeign member.1 = false := by
  have each : ∀ names ∈ [[memberType], [memberType, memberValue], [memberType, memberChildren],
      [memberType, memberValue, memberChildren]],
      names.Pairwise (fun first second => first.same second = false) ∧
        ∀ name ∈ names, isForeign name = false := by
    decide
  obtain ⟨distinct, meant⟩ := each _ (names_ownMembers kind value children)
  refine ⟨Members.areDistinct_iff.mpr distinct, ?_⟩
  intro member inside
  exact meant member.1 (List.mem_map_of_mem inside)

/-- A name with a meaning of its own is a string, so that no foreign name is the same. -/
theorem same_eq_false {name other : Json.Name} (meant : isForeign name = false)
    (foreign : isForeign other = true) : name.same other = false := by
  have text : ∃ spelled, name = .string spelled := by
    simp only [isForeign, Bool.and_eq_false_iff, bne_eq_false_iff_eq] at meant
    rcases meant with (rfl | rfl) | rfl <;> exact ⟨_, rfl⟩
  obtain ⟨spelled, rfl⟩ := text
  rw [Json.Name.string_same, beq_eq_false_iff_ne]
  rintro rfl
  rw [foreign] at meant
  exact absurd meant (by simp)

/-- The further data of an element has other names than what stands before it. -/
theorem areDistinct_element (kind value : Json) (children : List Node) {others : Members}
    (data : IsForeignData others) : (ownMembers kind value children ++ others).AreDistinct := by
  obtain ⟨distinct, meant⟩ := areDistinct_ownMembers kind value children
  obtain ⟨apart, _⟩ := Json.hasDistinctNames_object.mp data.distinct
  refine List.pairwise_append.mpr ⟨distinct, apart, ?_⟩
  intro own inOwn other inOthers
  exact same_eq_false (meant own inOwn) (data.foreign other inOthers)

/-- An element is written as its own members and its data after them. -/
theorem toJson_element (kind value : Json) (children : List Node) {others : Members}
    (data : IsForeignData others) :
    toJson (element kind value children others) =
      .object (ownMembers kind value children ++ others) := by
  rw [toJson]
  exact congrArg Json.object
    (Members.update_of_areDistinct (areDistinct_element kind value children data))

/-- The kind of an element is read as it was. -/
theorem textMember_type (kind value : Json) (children : List Node) (others : Members) :
    textMember (ownMembers kind value children ++ others) memberType = kind := by
  simp [textMember, ownMembers]

/-- The value of an element is read as it was. -/
theorem lookup_value (kind value : Json) (children : List Node) {others : Members}
    (data : IsForeignData others) :
    ((ownMembers kind value children ++ others).lookup memberValue).getD .null = value := by
  have absent := data.lookup_eq_none (by decide : isForeign memberValue = false)
  have valueType : (memberValue == memberType) = false := by decide
  have valueChildren : (memberValue == memberChildren) = false := by decide
  by_cases empty : children.isEmpty = true
  · cases value <;>
      simp [ownMembers, valueMembers, childrenMembers, List.lookup_cons, empty, absent, valueType]
  · cases value <;>
      simp [ownMembers, valueMembers, childrenMembers, List.lookup_cons, empty, absent, valueType,
        valueChildren]

/-- The children of an element are read as they were. -/
theorem readChildren_members (kind value : Json) {children : List Node} {others : Members}
    (data : IsForeignData others)
    (back : ∀ child ∈ children, ofJson? (toJson child) = .ok child) :
    readChildren (ownMembers kind value children ++ others) = .ok children := by
  have absent := data.lookup_eq_none (by decide : isForeign memberChildren = false)
  have childrenType : (memberChildren == memberType) = false := by decide
  have childrenValue : (memberChildren == memberValue) = false := by decide
  rw [readChildren_eq]
  by_cases empty : children.isEmpty = true
  · have absentHere : (ownMembers kind value children ++ others).lookup memberChildren = none := by
      cases value <;>
        simp [ownMembers, valueMembers, childrenMembers, List.lookup_cons, empty, absent,
          childrenType, childrenValue]
    rw [absentHere, List.isEmpty_iff.mp empty]
  · have present : (ownMembers kind value children ++ others).lookup memberChildren =
        some (.array (toJsons children)) := by
      cases value <;>
        simp [ownMembers, valueMembers, childrenMembers, List.lookup_cons, empty, childrenType,
          childrenValue]
    rw [present]
    exact readNodes_toJsons back

/-- The data of an element is read as it was. -/
theorem filter_members (kind value : Json) (children : List Node) {others : Members}
    (data : IsForeignData others) :
    (ownMembers kind value children ++ others).filter (fun (name, _) => isForeign name) =
      others := by
  have meant := (areDistinct_ownMembers kind value children).2
  have dropped : (ownMembers kind value children).filter (fun (name, _) => isForeign name) =
      [] := by
    rw [List.filter_eq_nil_iff]
    intro member inside
    simpa using meant member inside
  have kept : others.filter (fun (name, _) => isForeign name) = others :=
    List.filter_eq_self.mpr fun member inside => data.foreign member inside
  rw [List.filter_append, dropped, kept, List.nil_append]

/-- An element is written and read back. -/
theorem ofJson?_element {kind value : Json} {children : List Node} {others : Members}
    (notInline : kind.text ≠ hiddenInlineKind) (notBlock : kind.text ≠ hiddenBlockKind)
    (data : IsForeignData others)
    (back : ∀ child ∈ children, ofJson? (toJson child) = .ok child) :
    ofJson? (toJson (element kind value children others)) =
      .ok (element kind value children others) := by
  rw [toJson_element kind value children data, ofJson?, readChildren_members kind value data back]
  change ofMembers _ children = _
  rw [ofMembers, textMember_type, if_neg notInline, if_neg notBlock,
    lookup_value kind value children data, filter_members kind value children data]

/-! ## Hidden nodes -/

/-- A hidden run is written and read back, with attributes, payload and label of any value. -/
theorem ofJson?_hiddenInline (attributes : Members) (payload label : Json) :
    ofJson? (toJson (hiddenInline attributes payload label)) =
      .ok (hiddenInline attributes payload label) := rfl

/-- A hidden block is written and read back, with attributes and label of any value. -/
theorem ofJson?_hiddenBlock (attributes : Members) (label : Json) {children : List Node}
    (back : ∀ child ∈ children, ofJson? (toJson child) = .ok child) :
    ofJson? (toJson (hiddenBlock attributes label children)) =
      .ok (hiddenBlock attributes label children) := by
  have inside : readChildren
      [(memberType, hiddenBlockKind), (memberAttributes, .object attributes),
        (memberLabel, label), (memberChildren, .array (toJsons children))] = .ok children := by
    rw [readChildren_eq]
    exact readNodes_toJsons back
  rw [toJson, ofJson?, inside]
  rfl

/-! ## Nodes of the three forms -/

/-- A node in one of the forms in which nodes are read. -/
inductive HasForm : Node → Prop where
  | element {kind value : Json} {children : List Node} {others : Members}
      (named : kind.HasDistinctNames) (valued : value.HasDistinctNames)
      (notInline : kind.text ≠ hiddenInlineKind) (notBlock : kind.text ≠ hiddenBlockKind)
      (data : IsForeignData others) : HasForm (.element kind value children others)
  | hiddenInline {attributes : Members} {payload label : Json}
      (distinct : (Json.object attributes).HasDistinctNames) (hidden : payload.HasDistinctNames)
      (shown : label.HasDistinctNames) : HasForm (.hiddenInline attributes payload label)
  | hiddenBlock {attributes : Members} {label : Json} {children : List Node}
      (distinct : (Json.object attributes).HasDistinctNames) (shown : label.HasDistinctNames) :
      HasForm (.hiddenBlock attributes label children)

/-- A node that can be written without loss, with everything below it. -/
def Restorable (node : Node) : Prop := node.Everywhere HasForm

/-- A restorable node is written and read back, with everything below it. -/
theorem Restorable.back {node : Node} (restorable : node.Restorable) :
    ofJson? (toJson node) = .ok node := by
  induction restorable with
  | @node node form _ back =>
    cases form with
    | element _ _ notInline notBlock data => exact ofJson?_element notInline notBlock data back
    | hiddenInline _ _ _ => exact ofJson?_hiddenInline _ _ _
    | hiddenBlock _ _ => exact ofJson?_hiddenBlock _ _ back

/-- A restorable node is written as an object that has each name once, with everything below it. -/
theorem Restorable.hasDistinctNames {node : Node} (restorable : node.Restorable) :
    (toJson node).HasDistinctNames := by
  induction restorable with
  | @node node form _ below =>
    have inside : (Json.array (toJsons node.children)).HasDistinctNames := by
      rw [toJsons_eq_map]
      exact Json.hasDistinctNames_array.mpr (List.forall_mem_map.mpr below)
    cases form with
    | @element kind value children others named valued _ _ data =>
      rw [toJson_element kind value children data]
      obtain ⟨_, others⟩ := Json.hasDistinctNames_object.mp data.distinct
      refine Json.hasDistinctNames_object.mpr ⟨areDistinct_element kind value children data, ?_⟩
      refine List.forall_mem_append.mpr ⟨List.forall_mem_cons.mpr ⟨named, ?_⟩, others⟩
      refine List.forall_mem_append.mpr ⟨?_, ?_⟩
      · cases value <;> simp [valueMembers, valued]
      · unfold childrenMembers
        split
        · simp
        · exact List.forall_mem_singleton.mpr inside
    | hiddenInline distinct hidden shown =>
      have once : [memberType, memberAttributes, memberPayload, memberLabel].Pairwise
          (fun first second => first.same second = false) := by decide
      refine Json.hasDistinctNames_object.mpr ⟨Members.areDistinct_iff.mpr once, ?_⟩
      simp [distinct, hidden, shown]
    | hiddenBlock distinct shown =>
      have once : [memberType, memberAttributes, memberLabel, memberChildren].Pairwise
          (fun first second => first.same second = false) := by decide
      refine Json.hasDistinctNames_object.mpr ⟨Members.areDistinct_iff.mpr once, ?_⟩
      simpa [distinct, shown, Node.children] using inside

/-! ## Reading nodes -/

/-- The first of two steps that succeed, and the second after it. -/
theorem exists_of_bind {α β : Type} {first : Except Fault α} {next : α → Except Fault β}
    {result : β} (run : (first >>= next) = .ok result) :
    ∃ made, first = .ok made ∧ next made = .ok result := by
  cases first with
  | error fault => simp [Bind.bind, Except.bind] at run
  | ok made => exact ⟨made, rfl, run⟩

/-- The value of a pair that is read has the names of the item it is read from. -/
theorem hasDistinctNames_of_readPair {index : Nat} {item : Json} {pair : Json.Name × Json}
    (distinct : item.HasDistinctNames) (read : readPair index item = .ok pair) :
    pair.2.HasDistinctNames := by
  unfold readPair at read
  split at read
  · obtain ⟨_, _, same⟩ := exists_of_bind read
    cases same
    exact distinct.inside (by simp [Json.parts])
  · simp at read
  · cases read
    exact Json.hasDistinctNames_string _
  · simp at read
  · cases read
    exact Json.hasDistinctNames_toJson _
  · simp at read
  · simp at read

/-- The values of pairs that are read have the names of the items they are read from. -/
theorem hasDistinctNames_of_readPairs {index : Nat} {items : List Json} {pairs : Members}
    (distinct : ∀ item ∈ items, item.HasDistinctNames) (read : readPairs index items = .ok pairs) :
    ∀ pair ∈ pairs, pair.2.HasDistinctNames := by
  induction items generalizing index pairs with
  | nil =>
    cases read
    simp
  | cons item rest inductionHypothesis =>
    obtain ⟨first, others⟩ := List.forall_mem_cons.mp distinct
    rw [readPairs] at read
    obtain ⟨pair, here, more⟩ := exists_of_bind read
    obtain ⟨found, later, same⟩ := exists_of_bind more
    cases same
    exact List.forall_mem_cons.mpr
      ⟨hasDistinctNames_of_readPair first here, inductionHypothesis others later⟩

/-- Attributes that are read have each name once. -/
theorem hasDistinctNames_of_readAttributes {members attributes : Members}
    (distinct : ∀ member ∈ members, member.2.HasDistinctNames)
    (read : readAttributes members = .ok attributes) :
    (Json.object attributes).HasDistinctNames := by
  have empty : (Json.object []).HasDistinctNames :=
    Json.hasDistinctNames_object.mpr ⟨List.Pairwise.nil, by simp⟩
  unfold readAttributes at read
  split at read
  · cases read
    exact empty
  · rename_i found stands
    cases read
    obtain ⟨_, _, rfl, _⟩ := List.lookup_eq_some_iff.mp stands
    exact distinct (memberAttributes, .object attributes) (by simp)
  · rename_i items stands
    obtain ⟨_, _, rfl, _⟩ := List.lookup_eq_some_iff.mp stands
    have listed := distinct (memberAttributes, .array items) (by simp)
    cases parts : readPairs 0 items with
    | error fault => simp [parts, Functor.map, Except.map] at read
    | ok found =>
      rw [parts] at read
      cases read
      exact Json.hasDistinctNames_ofList
        (hasDistinctNames_of_readPairs (fun item inside => listed.inside inside) parts)
  · cases read
    exact empty
  · simp at read
  · simp at read

/-- A member that is looked up has the names of its value; an absent one has none. -/
theorem hasDistinctNames_textMember {members : Members}
    (distinct : ∀ member ∈ members, member.2.HasDistinctNames) (name : Json.Name) :
    (textMember members name).HasDistinctNames := by
  unfold textMember
  cases stands : members.lookup name with
  | none => exact Json.hasDistinctNames_string []
  | some value =>
    obtain ⟨_, _, rfl, _⟩ := List.lookup_eq_some_iff.mp stands
    exact distinct (name, value) (by simp)

/-- The nodes of a list are those of its items. -/
theorem exists_of_readNodes {items : List Json} {nodes : List Node}
    (read : readNodes items = .ok nodes) :
    ∀ node ∈ nodes, ∃ item ∈ items, ofJson? item = .ok node := by
  induction items generalizing nodes with
  | nil =>
    cases read
    simp
  | cons item rest inductionHypothesis =>
    rw [readNodes] at read
    obtain ⟨first, here, more⟩ := exists_of_bind read
    obtain ⟨others, later, same⟩ := exists_of_bind more
    cases same
    refine List.forall_mem_cons.mpr ⟨⟨item, by simp, here⟩, ?_⟩
    intro node member
    obtain ⟨found, inside, made⟩ := inductionHypothesis later node member
    exact ⟨found, List.mem_cons_of_mem _ inside, made⟩

/-- The node of members with distinct names is restorable if its children are. -/
theorem restorable_of_ofMembers {members : Members} {children : List Node} {node : Node}
    (once : members.AreDistinct) (distinct : ∀ member ∈ members, member.2.HasDistinctNames)
    (below : ∀ child ∈ children, child.Restorable)
    (read : ofMembers members children = .ok node) : node.Restorable := by
  have kept := hasDistinctNames_textMember distinct
  unfold ofMembers at read
  simp only at read
  split at read
  · obtain ⟨attributes, found, same⟩ := exists_of_bind read
    cases same
    have assigned := hasDistinctNames_of_readAttributes distinct found
    exact .node (.hiddenInline assigned (kept _) (kept _)) (by simp [Node.children])
  · split at read
    · obtain ⟨attributes, found, same⟩ := exists_of_bind read
      cases same
      exact .node (.hiddenBlock (hasDistinctNames_of_readAttributes distinct found) (kept _)) below
    · rename_i notInline notBlock
      cases read
      have valued : ((members.lookup memberValue).getD .null).HasDistinctNames := by
        cases stands : members.lookup memberValue with
        | none => exact Json.hasDistinctNames_null
        | some value =>
          obtain ⟨_, _, rfl, _⟩ := List.lookup_eq_some_iff.mp stands
          exact distinct (memberValue, value) (by simp)
      refine .node (.element (kept _) valued notInline notBlock ⟨?_, ?_⟩) below
      · intro member inside
        exact (List.mem_filter.mp inside).2
      · refine Json.hasDistinctNames_object.mpr ⟨once.sublist List.filter_sublist, ?_⟩
        intro member inside
        exact distinct member (List.mem_filter.mp inside).1

/-- Nodes are read in their forms. -/
theorem restorable_of_read {json : Json} (distinct : json.HasDistinctNames) :
    (∀ node, ofJson? json = .ok node → node.Restorable) ∧
      ∀ nodes, readCollection json = .ok nodes → ∀ node ∈ nodes, node.Restorable := by
  induction distinct with
  | @value json once below inductionHypothesis =>
    constructor
    · intro node read
      cases json with
      | object members =>
        rw [ofJson?] at read
        obtain ⟨children, inside, made⟩ := exists_of_bind read
        have each : ∀ member ∈ members, member.2.HasDistinctNames := fun member within =>
          below member.2 (List.mem_map_of_mem within)
        refine restorable_of_ofMembers once each ?_ made
        rw [readChildren_eq] at inside
        split at inside
        · cases inside
          simp
        · rename_i value stands
          obtain ⟨_, _, rfl, _⟩ := List.lookup_eq_some_iff.mp stands
          exact (inductionHypothesis value (by simp [Json.parts])).2 children inside
      | _ => simp [ofJson?] at read
    · intro nodes read node member
      unfold readCollection at read
      split at read
      · obtain ⟨item, inside, made⟩ := exists_of_readNodes read node member
        exact (inductionHypothesis item inside).1 node made
      · cases read
        simp at member
      · cases read
        simp at member
      · simp at read
      · simp at read
      · simp at read

end Node

end HiddenContent
