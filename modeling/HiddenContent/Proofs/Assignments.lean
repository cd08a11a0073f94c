import HiddenContent.Mapping
import Mathlib.Data.List.Induction
import Mathlib.Data.List.Nodup

/-!
# What a sequence of assignments leaves

A mapping in which each key stands once is decided by its keys in order and by the value of each
key. An assignment adds its key at the end unless it is there, and changes no other value; no pair
is there that was not assigned. So a sequence of assignments leaves each key at its first place
with its last value, which `settled` states without assigning anything.

To update a mapping with what assignments left is to make these assignments in it: the keys that
are there keep their places, the new ones follow in their order, and a value that is assigned
replaces the one before it.
-/

namespace HiddenContent

namespace Mapping

variable {α : Type}

/-- The empty mapping has no keys. -/
@[simp] theorem keys_nil : keys ([] : Mapping α) = [] := rfl

/-- The keys of a mapping, one after the other. -/
@[simp] theorem keys_cons (key : Text) (value : α) (rest : Mapping α) :
    keys ((key, value) :: rest) = key :: keys rest := rfl

/-- An update makes its assignments one by one. -/
theorem update_cons (mapping : Mapping α) (key : Text) (value : α) (rest : Mapping α) :
    mapping.update ((key, value) :: rest) = (mapping.insert key value).update rest := rfl

/-- The first pair of a key decides its value. -/
theorem get?_cons (key asked : Text) (value : α) (rest : Mapping α) :
    get? ((key, value) :: rest) asked = if asked = key then some value else get? rest asked := by
  rw [get?, List.lookup_cons]
  by_cases same : asked = key
  · simp [same]
  · rw [beq_false_of_ne same, if_neg same]
    rfl

/-- An assignment keeps the keys, or adds its own at the end. -/
theorem keys_insert (mapping : Mapping α) (key : Text) (value : α) :
    (mapping.insert key value).keys =
      if key ∈ mapping.keys then mapping.keys else mapping.keys ++ [key] := by
  induction mapping with
  | nil => simp [insert]
  | cons first rest inductionHypothesis =>
    obtain ⟨present, old⟩ := first
    rw [insert]
    by_cases same : present = key
    · simp [same]
    · rw [if_neg same, keys_cons, inductionHypothesis, keys_cons]
      by_cases later : key ∈ keys rest
      · simp [later]
      · simp [later, Ne.symm same]

/-- An assignment changes the value of its key alone. -/
theorem get?_insert (mapping : Mapping α) (key asked : Text) (value : α) :
    (mapping.insert key value).get? asked =
      if asked = key then some value else mapping.get? asked := by
  induction mapping with
  | nil => exact get?_cons key asked value []
  | cons first rest inductionHypothesis =>
    obtain ⟨present, old⟩ := first
    rw [insert]
    by_cases here : present = key
    · subst here
      rw [if_pos rfl, get?_cons, get?_cons]
      by_cases same : asked = present
      · rw [if_pos same, if_pos same]
      · rw [if_neg same, if_neg same, if_neg same]
    · rw [if_neg here, get?_cons, get?_cons, inductionHypothesis]
      by_cases same : asked = present
      · subst same
        rw [if_pos rfl, if_neg here, if_pos rfl]
      · rw [if_neg same, if_neg same]

/-- An assignment adds nothing but its own pair. -/
theorem mem_insert (mapping : Mapping α) (key : Text) (value : α) (pair : Text × α)
    (member : pair ∈ mapping.insert key value) : pair ∈ mapping ∨ pair = (key, value) := by
  induction mapping with
  | nil => exact Or.inr (by simpa [insert] using member)
  | cons first rest inductionHypothesis =>
    obtain ⟨present, old⟩ := first
    simp only [insert] at member
    split at member
    · rcases List.mem_cons.mp member with same | later
      · exact Or.inr same
      · exact Or.inl (List.mem_cons_of_mem _ later)
    · rcases List.mem_cons.mp member with same | later
      · exact Or.inl (by simp [same])
      · rcases inductionHypothesis later with inside | same
        · exact Or.inl (List.mem_cons_of_mem _ inside)
        · exact Or.inr same

/-- An assignment adds nothing but the assigned pairs. -/
theorem mem_update (mapping pairs : Mapping α) (pair : Text × α)
    (member : pair ∈ mapping.update pairs) : pair ∈ mapping ∨ pair ∈ pairs := by
  induction pairs generalizing mapping with
  | nil => exact Or.inl member
  | cons first rest inductionHypothesis =>
    rcases inductionHypothesis (mapping.insert first.1 first.2) member with inside | later
    · rcases mem_insert mapping first.1 first.2 pair inside with before | same
      · exact Or.inl before
      · exact Or.inr (by simp [same])
    · exact Or.inr (List.mem_cons_of_mem _ later)

/-- A key that has a value, or is assigned one, has it after assignments none of which gives the
    key another value. -/
theorem get?_update_of_agree (mapping pairs : Mapping α) (key : Text) (value : α)
    (agree : ∀ pair ∈ pairs, pair.1 = key → pair.2 = value)
    (present : mapping.get? key = some value ∨ key ∈ pairs.keys) :
    (mapping.update pairs).get? key = some value := by
  induction pairs generalizing mapping with
  | nil => exact present.resolve_right List.not_mem_nil
  | cons first rest inductionHypothesis =>
    obtain ⟨assigned, new⟩ := first
    obtain ⟨agreeHere, agreeLater⟩ := List.forall_mem_cons.mp agree
    apply inductionHypothesis (mapping.insert assigned new) agreeLater
    rw [get?_insert]
    by_cases same : key = assigned
    · have agreed : new = value := agreeHere same.symm
      exact Or.inl (by rw [if_pos same, agreed])
    · rw [if_neg same]
      refine present.imp_right fun member => ?_
      exact (List.mem_cons.mp member).resolve_left same

/-- Assignments are made one part after the other. -/
theorem update_append (mapping first last : Mapping α) :
    mapping.update (first ++ last) = (mapping.update first).update last :=
  List.foldl_append

/-- The assignment of a new key comes last. -/
theorem insert_of_absent (mapping : Mapping α) (key : Text) (value : α)
    (absent : key ∉ mapping.keys) : mapping.insert key value = mapping ++ [(key, value)] := by
  induction mapping with
  | nil => rfl
  | cons first rest inductionHypothesis =>
    obtain ⟨present, old⟩ := first
    rw [keys_cons, List.mem_cons, not_or] at absent
    rw [insert, if_neg (Ne.symm absent.1), inductionHypothesis absent.2, List.cons_append]

/-- Assignments of new keys, each once, come last in their order. -/
theorem update_of_nodup_keys (mapping pairs : Mapping α)
    (once : (mapping.keys ++ pairs.keys).Nodup) : mapping.update pairs = mapping ++ pairs := by
  induction pairs generalizing mapping with
  | nil => exact (List.append_nil mapping).symm
  | cons first rest inductionHypothesis =>
    obtain ⟨key, value⟩ := first
    have absent : key ∉ mapping.keys := by
      intro present
      exact List.disjoint_of_nodup_append once present (by simp)
    have onward : (keys (mapping ++ [(key, value)]) ++ keys rest).Nodup := by
      simpa [keys] using once
    have later := inductionHypothesis (mapping ++ [(key, value)]) onward
    rw [← insert_of_absent mapping key value absent] at later
    rw [update_cons, later, insert_of_absent mapping key value absent, List.append_assoc,
      List.singleton_append]

/-- Assigning the pairs of a mapping in order makes the mapping. -/
theorem ofList_of_nodup_keys (mapping : Mapping α) (once : mapping.keys.Nodup) :
    ofList mapping = mapping :=
  update_of_nodup_keys [] mapping once

/-- A key that is written again has its place already. -/
theorem eraseDups_append_singleton (keys : List Text) (key : Text) :
    (keys ++ [key]).eraseDups =
      if key ∈ keys then keys.eraseDups else keys.eraseDups ++ [key] := by
  rw [List.eraseDups_append]
  by_cases present : key ∈ keys
  · simp [List.removeAll, present]
  · simp [List.removeAll, present, List.eraseDups_cons]

/-- Keys renamed apart have their places as before. -/
theorem eraseDups_map {rename : Text → Text} (apart : Function.Injective rename)
    (keys : List Text) : (keys.map rename).eraseDups = keys.eraseDups.map rename := by
  induction keys using List.reverseRecOn with
  | nil => rfl
  | append_singleton keys last inductionHypothesis =>
    rw [List.map_append, List.map_singleton, eraseDups_append_singleton,
      eraseDups_append_singleton, inductionHypothesis]
    simp only [List.mem_map_of_injective apart]
    by_cases present : last ∈ keys
    · rw [if_pos present, if_pos present]
    · rw [if_neg present, if_neg present, List.map_append, List.map_singleton]

/-- Forgetting a key leaves the other keys. -/
theorem keys_erase (mapping : Mapping α) (key : Text) :
    (mapping.erase key).keys = mapping.keys.filter (· != key) := by
  rw [erase, keys, keys, List.filter_map]
  rfl

/-- The mapping of one more assignment. -/
theorem ofList_append_singleton (pairs : List (Text × α)) (key : Text) (value : α) :
    ofList (pairs ++ [(key, value)]) = (ofList pairs).insert key value := by
  simp [ofList, update]

/-- Assignments leave each key at its first place. -/
theorem keys_ofList (pairs : List (Text × α)) :
    (ofList pairs).keys = (pairs.map Prod.fst).eraseDups := by
  induction pairs using List.reverseRecOn with
  | nil => rfl
  | append_singleton pairs last inductionHypothesis =>
    obtain ⟨key, value⟩ := last
    rw [ofList_append_singleton, keys_insert, inductionHypothesis, List.map_append,
      List.map_singleton, eraseDups_append_singleton]
    simp only [List.mem_eraseDups]

/-- Assignments leave the last value of each key. -/
theorem get?_ofList (pairs : List (Text × α)) (key : Text) :
    (ofList pairs).get? key = pairs.reverse.lookup key := by
  induction pairs using List.reverseRecOn with
  | nil => rfl
  | append_singleton pairs last inductionHypothesis =>
    obtain ⟨present, value⟩ := last
    rw [ofList_append_singleton, get?_insert, inductionHypothesis, List.reverse_append,
      List.reverse_singleton, List.singleton_append]
    exact (get?_cons present key value pairs.reverse).symm

/-- Each key has one place after assignments. -/
theorem nodup_keys_ofList (pairs : List (Text × α)) : (ofList pairs).keys.Nodup := by
  induction pairs using List.reverseRecOn with
  | nil => exact List.nodup_nil
  | append_singleton pairs last inductionHypothesis =>
    rw [ofList_append_singleton, keys_insert]
    split
    · exact inductionHypothesis
    · rename_i absent
      rw [← List.concat_eq_append]
      exact List.Nodup.concat absent inductionHypothesis

/-- Of two assignments of one key the last one counts. -/
theorem insert_insert (mapping : Mapping α) (key : Text) (former value : α) :
    (mapping.insert key former).insert key value = mapping.insert key value := by
  induction mapping with
  | nil => simp [insert]
  | cons first rest inductionHypothesis =>
    obtain ⟨present, old⟩ := first
    by_cases same : present = key
    · simp [insert, same]
    · simp [insert, same, inductionHypothesis]

/-- A key that has its place gets its value before or after the assignment of another key. -/
theorem insert_comm_of_mem {mapping : Mapping α} {key other : Text} (value new : α)
    (present : key ∈ mapping.keys) (different : other ≠ key) :
    (mapping.insert other new).insert key value =
      (mapping.insert key value).insert other new := by
  induction mapping with
  | nil => exact absurd present List.not_mem_nil
  | cons first rest inductionHypothesis =>
    obtain ⟨here, old⟩ := first
    by_cases found : here = key
    · subst found
      simp [insert, different.symm]
    · have later : key ∈ keys rest := (List.mem_cons.mp present).resolve_left (Ne.symm found)
      by_cases same : here = other
      · simp [insert, same, different]
      · simp [insert, same, found, inductionHypothesis later]

/-- A key that has its place gets its value before or after assignments of other keys. -/
theorem insert_update_of_mem {mapping pairs : Mapping α} {key : Text} (value : α)
    (present : key ∈ mapping.keys) (absent : key ∉ pairs.keys) :
    (mapping.update pairs).insert key value = (mapping.insert key value).update pairs := by
  induction pairs generalizing mapping with
  | nil => rfl
  | cons first rest inductionHypothesis =>
    obtain ⟨other, new⟩ := first
    rw [keys_cons, List.mem_cons, not_or] at absent
    have still : key ∈ (mapping.insert other new).keys := by
      rw [keys_insert]
      split
      · exact present
      · exact List.mem_append_left _ present
    rw [update_cons, update_cons, inductionHypothesis still absent.2,
      insert_comm_of_mem value new present (Ne.symm absent.1)]

/-- What one more assignment left assigns as it did. -/
theorem update_insert (mapping pairs : Mapping α) (key : Text) (value : α)
    (once : pairs.keys.Nodup) :
    mapping.update (pairs.insert key value) = (mapping.update pairs).insert key value := by
  induction pairs generalizing mapping with
  | nil => rfl
  | cons first rest inductionHypothesis =>
    obtain ⟨present, old⟩ := first
    obtain ⟨absent, later⟩ := List.nodup_cons.mp once
    rw [insert]
    by_cases same : present = key
    · subst same
      -- the key has its place since its former assignment, so the last one can follow at once
      have placed : present ∈ (mapping.insert present old).keys := by
        rw [keys_insert]
        split
        · assumption
        · simp
      rw [if_pos rfl, update_cons, update_cons, insert_update_of_mem value placed absent,
        insert_insert]
    · rw [if_neg same, update_cons, update_cons,
        inductionHypothesis (mapping.insert present old) later]

/-- What assignments left assigns as they do. -/
theorem update_ofList (mapping : Mapping α) (pairs : List (Text × α)) :
    mapping.update (ofList pairs) = mapping.update pairs := by
  induction pairs using List.reverseRecOn with
  | nil => rfl
  | append_singleton pairs last inductionHypothesis =>
    obtain ⟨key, value⟩ := last
    rw [ofList_append_singleton, update_insert _ _ _ _ (nodup_keys_ofList pairs),
      inductionHypothesis, update_append]
    rfl

/-- Assignments keep the keys in their places, and the new keys come last in their order. -/
theorem keys_update (mapping pairs : Mapping α) (once : pairs.keys.Nodup) :
    (mapping.update pairs).keys = mapping.keys ++ pairs.keys.filter (· ∉ mapping.keys) := by
  induction pairs generalizing mapping with
  | nil => exact (List.append_nil mapping.keys).symm
  | cons first rest inductionHypothesis =>
    obtain ⟨key, value⟩ := first
    obtain ⟨absent, later⟩ := List.nodup_cons.mp once
    have onward := inductionHypothesis (mapping.insert key value) later
    rw [keys_insert] at onward
    rw [update_cons, keys_cons, List.filter_cons]
    by_cases present : key ∈ mapping.keys
    · simpa [present] using onward
    · have others : (keys rest).filter (· ∉ mapping.keys ++ [key]) =
          (keys rest).filter (· ∉ mapping.keys) := by
        apply List.filter_congr
        intro other member
        have different : other ≠ key := fun same => absent (same ▸ member)
        simp [different]
      rw [if_neg present, others] at onward
      simpa [present] using onward

/-- After assignments a key has the value that they assign, or else the one that it had. -/
theorem get?_update (mapping pairs : Mapping α) (once : pairs.keys.Nodup) (key : Text) :
    (mapping.update pairs).get? key = (pairs.get? key).or (mapping.get? key) := by
  induction pairs generalizing mapping with
  | nil => rfl
  | cons first rest inductionHypothesis =>
    obtain ⟨assigned, value⟩ := first
    obtain ⟨absent, later⟩ := List.nodup_cons.mp once
    have onward := inductionHypothesis (mapping.insert assigned value) later
    rw [get?_insert] at onward
    rw [update_cons, get?_cons]
    by_cases same : key = assigned
    · subst same
      have unassigned : get? rest key = none := by
        rw [get?, List.lookup_eq_none_iff]
        intro pair member
        have different : key ≠ pair.1 := by
          rintro rfl
          exact absent (List.mem_map.mpr ⟨pair, member, rfl⟩)
        simpa using different
      rw [if_pos rfl, unassigned, Option.none_or] at onward
      rw [if_pos rfl, Option.some_or, onward]
    · rw [if_neg same] at onward ⊢
      exact onward

/-- A mapping with each key once is its keys with their values. -/
theorem eq_of_nodup_keys (mapping : Mapping α) (once : mapping.keys.Nodup) :
    mapping = mapping.keys.filterMap fun key => (mapping.get? key).map (key, ·) := by
  induction mapping with
  | nil => rfl
  | cons first rest inductionHypothesis =>
    obtain ⟨key, value⟩ := first
    obtain ⟨absent, later⟩ := List.nodup_cons.mp once
    have others : (keys rest).filterMap (fun other =>
          (get? ((key, value) :: rest) other).map (other, ·)) =
        (keys rest).filterMap fun other => (get? rest other).map (other, ·) := by
      apply List.filterMap_congr
      intro other member
      have different : other ≠ key := fun same => absent (same ▸ member)
      rw [get?_cons, if_neg different]
    rw [keys_cons, List.filterMap_cons, others, ← inductionHypothesis later, get?_cons,
      if_pos rfl]
    rfl

/-- The keys of pairs in the order of their first places, each with its last value. -/
def settled (pairs : List (Text × α)) : Mapping α :=
  (pairs.map Prod.fst).eraseDups.filterMap fun key => (pairs.reverse.lookup key).map (key, ·)

/-- Assignments in order leave the settled pairs. -/
theorem ofList_eq_settled (pairs : List (Text × α)) : ofList pairs = settled pairs := by
  have whole := eq_of_nodup_keys (ofList pairs) (nodup_keys_ofList pairs)
  rw [keys_ofList] at whole
  simp only [get?_ofList] at whole
  exact whole

end Mapping

end HiddenContent
