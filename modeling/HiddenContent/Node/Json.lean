import HiddenContent.Node

/-!
# Nodes as JSON objects

A node is written as an object: its kind first, then the value and the children where there
are any, then its further data. A hidden node has fixed members. Reading restores the hidden
kinds and keeps every unknown member of another kind as data. Nothing is asked of the values that
are kept: a kind, a value, a payload, a label or an attribute may be of any shape.

A fault names what stands where something else is needed. Children are read before the
attributes of the node around them.
-/

namespace HiddenContent

namespace Node

/-- Why a value is no node. -/
inductive Fault where
  /-- A node is not an object. -/
  | notObject (shape : Json.Shape)
  /-- Children or attributes are not a collection. -/
  | notCollection (shape : Json.Shape)
  /-- An attribute is not a pair but has another number of parts. -/
  | notPair (index length : Nat)
  /-- An attribute has no parts at all. -/
  | notParts (index : Nat)
  /-- The name of an attribute is a collection. -/
  | collectionName (shape : Json.Shape)
deriving DecidableEq, Repr

/-- The member that holds the kind. -/
def memberType : Json.Name := .string "type".toList

/-- The member that holds the literal value. -/
def memberValue : Json.Name := .string "value".toList

/-- The member that holds the children. -/
def memberChildren : Json.Name := .string "children".toList

/-- The member that holds the attributes. -/
def memberAttributes : Json.Name := .string "attributes".toList

/-- The member that holds the hidden text. -/
def memberPayload : Json.Name := .string "payload".toList

/-- The member that holds the label. -/
def memberLabel : Json.Name := .string "label".toList

/-! ## Writing -/

/-- The member of a value, when there is one. -/
def valueMembers : Json → Json.Members
  | .null => []
  | value => [(memberValue, value)]

mutual

/-- A node as an object. -/
def toJson : Node → Json
  | element kind value children data =>
    .object (Json.Members.update
      ((memberType, kind) :: valueMembers value ++
        (if children.isEmpty then [] else [(memberChildren, .array (toJsons children))]))
      data)
  | hiddenInline attributes payload label =>
    .object
      [(memberType, hiddenInlineKind), (memberAttributes, .object attributes),
        (memberPayload, payload), (memberLabel, label)]
  | hiddenBlock attributes label children =>
    .object
      [(memberType, hiddenBlockKind), (memberAttributes, .object attributes),
        (memberLabel, label), (memberChildren, .array (toJsons children))]

/-- A sequence of nodes as objects. -/
def toJsons : List Node → List Json
  | [] => []
  | node :: rest => toJson node :: toJsons rest

end

/-! ## Reading -/

/-- Read the name of an attribute. -/
def readName : Json → Except Fault Json.Name
  | .null => .ok .null
  | .boolean value => .ok (.boolean value)
  | .integer value => .ok (.integer value)
  | .real spelling => .ok (.real spelling)
  | .string value => .ok (.string value)
  | .array _ => .error (.collectionName .array)
  | .object _ => .error (.collectionName .object)

/-- Read one attribute: two values, two characters, or the two names of an object. -/
def readPair (index : Nat) : Json → Except Fault (Json.Name × Json)
  | .array [name, value] => do return (← readName name, value)
  | .array items => .error (.notPair index items.length)
  | .string [name, value] => .ok (.string [name], .string [value])
  | .string characters => .error (.notPair index characters.length)
  | .object [(name, _), (value, _)] => .ok (name, value.toJson)
  | .object members => .error (.notPair index members.length)
  | _ => .error (.notParts index)

/-- Read attributes from a list, counting from an index. -/
def readPairs : (index : Nat) → List Json → Except Fault Json.Members
  | _, [] => .ok []
  | index, item :: rest => do
    let pair ← readPair index item
    return pair :: (← readPairs (index + 1) rest)

/-- Read attributes, which are empty when they are missing. -/
def readAttributes (members : Json.Members) : Except Fault Json.Members :=
  match members.lookup memberAttributes with
  | none => .ok []
  | some (.object attributes) => .ok attributes
  | some (.array items) => Json.Members.ofList <$> readPairs 0 items
  | some (.string []) => .ok []
  | some (.string _) => .error (.notPair 0 1)
  | some other => .error (.notCollection other.shape)

/-- A member that is an empty text when it is missing. -/
def textMember (members : Json.Members) (name : Json.Name) : Json :=
  (members.lookup name).getD (.string [])

/-- True for a name that only the data of a node can have. -/
def isForeign (name : Json.Name) : Bool :=
  name != memberType && name != memberValue && name != memberChildren

/-- The node of an object whose children are read. -/
def ofMembers (members : Json.Members) (children : List Node) : Except Fault Node :=
  let type := textMember members memberType
  if type.text = hiddenInlineKind then do
    return hiddenInline (← readAttributes members) (textMember members memberPayload)
      (textMember members memberLabel)
  else if type.text = hiddenBlockKind then do
    return hiddenBlock (← readAttributes members) (textMember members memberLabel) children
  else
    .ok (element type ((members.lookup memberValue).getD .null) children
      (members.filter fun (name, _) => isForeign name))

mutual

/-- Read a node. -/
def ofJson? : Json → Except Fault Node
  | .object members => do ofMembers members (← readChildren members)
  | other => .error (.notObject other.shape)

/-- Read the children among the members of a node. -/
def readChildren : Json.Members → Except Fault (List Node)
  | [] => .ok []
  | (name, value) :: rest =>
    if name = memberChildren then readCollection value else readChildren rest

/-- Read nodes from a collection; the parts of a text and the names of an object have no members,
    so that none of them is a node. -/
def readCollection : Json → Except Fault (List Node)
  | .array items => readNodes items
  | .string [] => .ok []
  | .object [] => .ok []
  | .string _ => .error (.notObject .string)
  | .object ((name, _) :: _) => .error (.notObject name.toJson.shape)
  | other => .error (.notCollection other.shape)

/-- Read nodes one after the other. -/
def readNodes : List Json → Except Fault (List Node)
  | [] => .ok []
  | item :: rest => do
    let node ← ofJson? item
    return node :: (← readNodes rest)

end

end Node

end HiddenContent
