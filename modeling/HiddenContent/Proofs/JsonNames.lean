import HiddenContent.Json.Reading

/-!
# The names in a value

An object that is read has each name once, at every depth: a name that is repeated only gives
another value to its first place. Assigning in order keeps that, and members of other names are
added in their order.
-/

namespace HiddenContent

namespace Json

namespace Members

/-- No two members have the same name. -/
def AreDistinct (members : Members) : Prop :=
  members.Pairwise fun first second => first.1.same second.1 = false

instance (members : Members) : Decidable members.AreDistinct :=
  inferInstanceAs (Decidable (List.Pairwise _ _))

/-- Whether members are distinct is seen at their names. -/
theorem areDistinct_iff {members : Members} :
    members.AreDistinct ↔
      (members.map Prod.fst).Pairwise fun first second => first.same second = false := by
  rw [List.pairwise_map]
  rfl

/-- The assignment of a new name comes last. -/
theorem assign_of_absent {members : Members} {name : Name} (value : Json)
    (absent : ∀ member ∈ members, member.1.same name = false) :
    members.assign name value = members ++ [(name, value)] := by
  induction members with
  | nil => rfl
  | cons first rest inductionHypothesis =>
    obtain ⟨present, old⟩ := first
    obtain ⟨here, later⟩ := List.forall_mem_cons.mp absent
    have other : ¬present.same name = true := by simpa using here
    rw [assign, if_neg other, inductionHypothesis later, List.cons_append]

/-- An assignment keeps every member, gives its value to a member of its name, or adds its own. -/
theorem mem_assign {members : Members} {name : Name} {value : Json} {member : Name × Json}
    (inside : member ∈ members.assign name value) :
    (∃ old ∈ members, member.1 = old.1 ∧ (member.2 = old.2 ∨ member.2 = value)) ∨
      member = (name, value) := by
  induction members with
  | nil => exact Or.inr (List.mem_singleton.mp inside)
  | cons first rest inductionHypothesis =>
    obtain ⟨present, old⟩ := first
    rw [assign] at inside
    split at inside
    · rcases List.mem_cons.mp inside with rfl | later
      · exact Or.inl ⟨(present, old), by simp, rfl, Or.inr rfl⟩
      · exact Or.inl ⟨member, List.mem_cons_of_mem _ later, rfl, Or.inl rfl⟩
    · rcases List.mem_cons.mp inside with rfl | later
      · exact Or.inl ⟨(present, old), by simp, rfl, Or.inl rfl⟩
      · refine (inductionHypothesis later).imp_left ?_
        rintro ⟨other, kept, same⟩
        exact ⟨other, List.mem_cons_of_mem _ kept, same⟩

/-- An assignment leaves distinct names distinct. -/
theorem AreDistinct.assign {members : Members} (distinct : members.AreDistinct) (name : Name)
    (value : Json) : (members.assign name value).AreDistinct := by
  induction distinct with
  | nil => exact List.pairwise_singleton _ _
  | @cons first rest here later inductionHypothesis =>
    obtain ⟨present, old⟩ := first
    rw [Members.assign]
    split
    · exact List.Pairwise.cons here later
    · rename_i other
      refine List.Pairwise.cons ?_ inductionHypothesis
      intro member inside
      rcases mem_assign inside with ⟨kept, before, same, _⟩ | rfl
      · rw [same]
        exact here kept before
      · simpa using other

/-- Members that are assigned in order have distinct names. -/
theorem areDistinct_ofList (pairs : Members) : (ofList pairs).AreDistinct := by
  have run : ∀ members : Members, members.AreDistinct → (update members pairs).AreDistinct := by
    induction pairs with
    | nil => exact fun _ distinct => distinct
    | cons pair rest inductionHypothesis =>
      intro members distinct
      exact inductionHypothesis _ (distinct.assign pair.1 pair.2)
  exact run [] List.Pairwise.nil

/-- A value that is assigned in order is one of those that were there or were assigned. -/
theorem exists_of_mem_update {members pairs : Members} {member : Name × Json}
    (inside : member ∈ members.update pairs) :
    ∃ old ∈ members ++ pairs, member.2 = old.2 := by
  induction pairs generalizing members with
  | nil => exact ⟨member, by simpa [update] using inside, rfl⟩
  | cons pair rest inductionHypothesis =>
    have later : member ∈ (members.assign pair.1 pair.2).update rest := inside
    obtain ⟨old, before, same⟩ := inductionHypothesis later
    rcases List.mem_append.mp before with assigned | later
    · rcases mem_assign assigned with ⟨kept, there, _, value⟩ | rfl
      · rcases value with value | value
        · exact ⟨kept, List.mem_append_left _ there, same.trans value⟩
        · exact ⟨pair, by simp, same.trans value⟩
      · exact ⟨pair, by simp, same⟩
    · exact ⟨old, by simp [later], same⟩

/-- Members of other names are added in order. -/
theorem update_of_areDistinct {members pairs : Members}
    (distinct : (members ++ pairs).AreDistinct) : members.update pairs = members ++ pairs := by
  induction pairs generalizing members with
  | nil => simp [update]
  | cons pair rest inductionHypothesis =>
    have joined : members ++ pair :: rest = (members ++ [pair]) ++ rest := by simp
    have absent : ∀ member ∈ members, member.1.same pair.1 = false := fun member inside =>
      (List.pairwise_append.mp distinct).2.2 member inside pair (by simp)
    rw [joined] at distinct ⊢
    rw [← inductionHypothesis distinct]
    change update (members.assign pair.1 pair.2) rest = _
    rw [assign_of_absent pair.2 absent]

/-- Texts with distinct keys are members with distinct names. -/
theorem areDistinct_ofTexts {pairs : List (Text × Text)} (once : (pairs.map Prod.fst).Nodup) :
    (ofTexts pairs).AreDistinct := by
  refine List.pairwise_map.mpr ((List.pairwise_map.mp once).imp ?_)
  intro first second different
  simpa using different

end Members

/-- The members of an object; other values have none. -/
def members : Json → Members
  | object members => members
  | _ => []

/-- The values directly inside a value. -/
def parts : Json → List Json
  | array items => items
  | object members => members.map Prod.snd
  | _ => []

/-- No object in a value has a name twice. -/
inductive HasDistinctNames : Json → Prop where
  | value {json : Json} (once : json.members.AreDistinct)
      (below : ∀ part ∈ json.parts, HasDistinctNames part) : HasDistinctNames json

/-- A value has the names of the values inside it. -/
theorem HasDistinctNames.inside {json part : Json} (distinct : json.HasDistinctNames)
    (member : part ∈ json.parts) : part.HasDistinctNames := by
  cases distinct with
  | value _ below => exact below part member

/-- An object has its own names and those of its values. -/
theorem hasDistinctNames_object {members : Members} :
    (object members).HasDistinctNames ↔
      members.AreDistinct ∧ ∀ member ∈ members, member.2.HasDistinctNames := by
  constructor
  · rintro ⟨once, below⟩
    exact ⟨once, fun member inside => below member.2 (List.mem_map_of_mem inside)⟩
  · rintro ⟨once, below⟩
    refine .value once ?_
    intro part inside
    obtain ⟨member, kept, rfl⟩ := List.mem_map.mp inside
    exact below member kept

/-- A value that is no collection has no names. -/
theorem hasDistinctNames_of_shape {json : Json} (notArray : json.shape ≠ .array)
    (notObject : json.shape ≠ .object) : json.HasDistinctNames := by
  cases json with
  | array items => exact absurd rfl notArray
  | object members => exact absurd rfl notObject
  | _ => exact .value List.Pairwise.nil (by simp [parts])

/-- The absent value holds no names. -/
@[simp] theorem hasDistinctNames_null : null.HasDistinctNames :=
  hasDistinctNames_of_shape (by simp [shape]) (by simp [shape])

/-- A truth value holds no names. -/
@[simp] theorem hasDistinctNames_boolean (value : Bool) : (boolean value).HasDistinctNames :=
  hasDistinctNames_of_shape (by simp [shape]) (by simp [shape])

/-- A number holds no names. -/
@[simp] theorem hasDistinctNames_integer (value : Int) : (integer value).HasDistinctNames :=
  hasDistinctNames_of_shape (by simp [shape]) (by simp [shape])

/-- A string holds no names. -/
@[simp] theorem hasDistinctNames_string (value : Text) : (string value).HasDistinctNames :=
  hasDistinctNames_of_shape (by simp [shape]) (by simp [shape])

/-- A name that stands as a value has no names inside. -/
@[simp] theorem hasDistinctNames_toJson (name : Name) : name.toJson.HasDistinctNames := by
  cases name <;> exact hasDistinctNames_of_shape (by simp [shape, Name.toJson])
    (by simp [shape, Name.toJson])

/-- A list has the names of its items. -/
theorem hasDistinctNames_array {items : List Json} :
    (array items).HasDistinctNames ↔ ∀ item ∈ items, item.HasDistinctNames := by
  constructor
  · exact fun distinct _ => distinct.inside
  · exact fun each => .value List.Pairwise.nil each

/-- Members that are put in order of their first places have distinct names. -/
theorem hasDistinctNames_ofList {pairs : Members}
    (each : ∀ pair ∈ pairs, pair.2.HasDistinctNames) :
    (object (Members.ofList pairs)).HasDistinctNames := by
  refine hasDistinctNames_object.mpr ⟨Members.areDistinct_ofList pairs, ?_⟩
  intro member kept
  obtain ⟨pair, before, same⟩ := Members.exists_of_mem_update kept
  rw [same]
  exact each pair (by simpa using before)

/-- A number is no collection. -/
theorem shape_of_readUnsigned {sign text rest : Text} {value : Json}
    (read : readUnsigned sign text = some (value, rest)) :
    value.shape ≠ .array ∧ value.shape ≠ .object := by
  obtain ⟨⟨whole, after⟩, _, number⟩ := Option.bind_eq_some_iff.mp read
  simp only at number
  split at number
  · split at number <;> · cases number; simp [shape]
  · cases number
    simp [shape]
  · split at number
    · simp at number
    · cases number
      simp [shape]

/-- A word or a number is no collection. -/
theorem shape_of_readPlain {text rest : Text} {value : Json}
    (read : readPlain text = some (value, rest)) :
    value.shape ≠ .array ∧ value.shape ≠ .object := by
  have plain : ∀ word ∈ words, word.2.shape ≠ .array ∧ word.2.shape ≠ .object := by decide
  unfold readPlain at read
  split at read
  · rename_i found word
    cases read
    obtain ⟨entry, inWords, after⟩ := List.exists_of_findSome?_eq_some word
    obtain ⟨_, _, same⟩ := Option.map_eq_some_iff.mp after
    cases same
    exact plain entry inWords
  · split at read
    · exact shape_of_readUnsigned read
    · exact shape_of_readUnsigned read

/-- With this much fuel, values, items and members are read with distinct names. -/
structure ReadsDistinct (fuel : Nat) : Prop where
  value : ∀ {text value rest}, readValue fuel text = some (value, rest) → value.HasDistinctNames
  items : ∀ {text items rest}, readItems fuel text = some (items, rest) →
    ∀ item ∈ items, item.HasDistinctNames
  members : ∀ {text members rest}, readMembers fuel text = some (members, rest) →
    ∀ member ∈ members, member.2.HasDistinctNames

namespace ReadsDistinct

variable {fuel : Nat} {text rest : Text}

/-- What a reader with more fuel makes of a value has distinct names, when the readers with less
    fuel keep names apart. -/
theorem value_succ (distinct : ReadsDistinct fuel) {value : Json}
    (read : readValue (fuel + 1) text = some (value, rest)) : value.HasDistinctNames := by
  unfold readValue at read
  split at read
  · obtain ⟨_, _, same⟩ := Option.map_eq_some_iff.mp read
    cases same
    exact hasDistinctNames_of_shape (by simp [shape]) (by simp [shape])
  · split at read
    · cases read
      exact hasDistinctNames_array.mpr (by simp)
    · obtain ⟨_, inside, same⟩ := Option.map_eq_some_iff.mp read
      cases same
      exact hasDistinctNames_array.mpr (distinct.items inside)
  · split at read
    · cases read
      exact @hasDistinctNames_ofList [] (by simp)
    · obtain ⟨_, inside, same⟩ := Option.map_eq_some_iff.mp read
      cases same
      exact hasDistinctNames_ofList (distinct.members inside)
  · obtain ⟨notArray, notObject⟩ := shape_of_readPlain read
    exact hasDistinctNames_of_shape notArray notObject

/-- The same for the items of an array. -/
theorem items_succ (distinct : ReadsDistinct fuel) {items : List Json}
    (read : readItems (fuel + 1) text = some (items, rest)) :
    ∀ item ∈ items, item.HasDistinctNames := by
  unfold readItems at read
  split at read
  · simp at read
  · rename_i item after first
    have here := distinct.value first
    split at read
    · cases read
      exact List.forall_mem_singleton.mpr here
    · obtain ⟨_, inside, same⟩ := Option.map_eq_some_iff.mp read
      cases same
      exact List.forall_mem_cons.mpr ⟨here, distinct.items inside⟩
    · simp at read

/-- The same for the values of an object's members. -/
theorem members_succ (distinct : ReadsDistinct fuel) {members : Members}
    (read : readMembers (fuel + 1) text = some (members, rest)) :
    ∀ member ∈ members, member.2.HasDistinctNames := by
  -- a name in quotes, a colon and a value, or there are no members
  unfold readMembers at read
  split at read <;> try simp at read
  split at read <;> try simp at read
  split at read <;> try simp at read
  split at read <;> try simp at read
  rename_i value after first
  have here := distinct.value first
  split at read
  · cases read
    exact List.forall_mem_singleton.mpr here
  · obtain ⟨_, inside, same⟩ := Option.map_eq_some_iff.mp read
    cases same
    exact List.forall_mem_cons.mpr ⟨here, distinct.members inside⟩
  · simp at read

end ReadsDistinct

/-- The readers keep names apart, with any fuel. -/
theorem readsDistinct (fuel : Nat) : ReadsDistinct fuel := by
  induction fuel with
  | zero => exact ⟨by simp [readValue], by simp [readItems], by simp [readMembers]⟩
  | succ fuel inductionHypothesis =>
    exact ⟨inductionHypothesis.value_succ, inductionHypothesis.items_succ,
      inductionHypothesis.members_succ⟩

/-- The value that a text holds has distinct names. -/
theorem hasDistinctNames_of_ofText? {text : Text} {json : Json} (read : ofText? text = some json) :
    json.HasDistinctNames := by
  unfold ofText? at read
  split at read
  · simp at read
  · rename_i value rest found
    split at read
    · cases read
      exact (readsDistinct _).value found
    · simp at read

end Json

end HiddenContent
