import HiddenContent.Text

/-!
# Mappings in order of first assignment

A mapping assigns values to keys and is read back in the order in which the keys were first
assigned. Assigning a key again keeps its position and replaces its value.
-/

namespace HiddenContent

/-- Keys with their values in the order of first assignment, each key once. -/
abbrev Mapping (α : Type) := List (Text × α)

namespace Mapping

variable {α : Type}

/-- Assign a value: a key that is there keeps its position, a new one comes last. -/
def insert (mapping : Mapping α) (key : Text) (value : α) : Mapping α :=
  match mapping with
  | [] => [(key, value)]
  | (present, old) :: rest =>
    if present = key then (key, value) :: rest else (present, old) :: insert rest key value

/-- Assign the pairs of the second mapping, in order, in the first. -/
def update (mapping pairs : Mapping α) : Mapping α :=
  pairs.foldl (fun assigned (key, value) => assigned.insert key value) mapping

/-- The mapping that a sequence of assignments makes. -/
def ofList (pairs : List (Text × α)) : Mapping α := update [] pairs

/-- The value of a key. -/
def get? (mapping : Mapping α) (key : Text) : Option α := mapping.lookup key

/-- Forget a key. -/
def erase (mapping : Mapping α) (key : Text) : Mapping α :=
  mapping.filter fun (present, _) => present != key

/-- The keys in order. -/
def keys (mapping : Mapping α) : List Text := mapping.map Prod.fst

end Mapping

end HiddenContent
