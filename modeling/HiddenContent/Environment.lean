import HiddenContent.Json.Reading
import HiddenContent.Settings

/-!
# Settings from the environment

Each setting may be given by an environment variable: the name of its field after a common
beginning, compared without regard to case. Words for truth values are read in any case but not
trimmed. The reserved keys are a JSON list of strings. A list that cannot be read at all is
one fault; every other fault is collected, in the order of the fields.
-/

namespace HiddenContent

namespace Environment

/-- The settings that a variable can give. -/
inductive Field where
  | directiveAction
  | reservedLabelKeys
  | forbiddenCharacters
  | persistLabel
  | inlineLabelDefault
  | blockLabelDefault
  | debugMode
deriving DecidableEq, Repr

/-- All fields in order. -/
def Field.all : List Field :=
  [directiveAction, reservedLabelKeys, forbiddenCharacters, persistLabel, inlineLabelDefault,
    blockLabelDefault, debugMode]

/-- The name of a field in lower case. -/
def Field.name : Field → Text
  | directiveAction => "directive_action".toList
  | reservedLabelKeys => "reserved_label_keys".toList
  | forbiddenCharacters => "forbidden_value_chars".toList
  | persistLabel => "persist_label".toList
  | inlineLabelDefault => "inline_label_default".toList
  | blockLabelDefault => "block_label_default".toList
  | debugMode => "debug_mode".toList

/-- What is wrong with the value of a field. -/
inductive FieldFault where
  /-- A truth value is none of the known words. -/
  | notBoolean (field : Field)
  /-- The keys are JSON, but no list. -/
  | notList
  /-- The key at an index is no string. -/
  | notText (index : Nat)
deriving DecidableEq, Repr

/-- Why there are no settings. -/
inductive Fault where
  /-- The keys are not JSON. -/
  | unreadableKeys
  /-- Fields have values that do not fit. -/
  | invalid (faults : List FieldFault)
deriving DecidableEq, Repr

/-- What is wrong, after the place where it is. -/
def FieldFault.wording : FieldFault → Text
  | notBoolean field => field.name ++ ": bool_parsing".toList
  | notList => Field.reservedLabelKeys.name ++ ": list_type".toList
  | notText index =>
    Field.reservedLabelKeys.name ++ ['.'] ++ Text.decimal index ++ ": string_type".toList

/-- The wording of a fault. -/
def Fault.wording : Fault → Text
  | unreadableKeys =>
    "error parsing value for field ".toList ++ ['\x22'] ++ Field.reservedLabelKeys.name ++
      ['\x22'] ++ " from source ".toList ++ "\"EnvSettingsSource\"".toList
  | invalid faults => "; ".toList.intercalate (faults.map FieldFault.wording)

/-- What the names of all variables begin with, in lower case. -/
def commonBeginning : Text := "hidemark_".toList

/-- The lower case of the characters that names are made of. -/
def lower (text : Text) : Text :=
  text.map fun c => if c == '\u212a' then 'k' else c.toLower

/-- The value of a field's variable; of several spellings of its name the last counts. -/
def value? (environment : List (Text × Text)) (field : Field) : Option Text :=
  let name := commonBeginning ++ field.name
  (environment.reverse.find? fun (present, _) => lower present == name).map Prod.snd

/-- The words for true. -/
def trueWords : List Text :=
  ["1".toList, "true".toList, "t".toList, "yes".toList, "y".toList, "on".toList]

/-- The words for false. -/
def falseWords : List Text :=
  ["0".toList, "false".toList, "f".toList, "no".toList, "n".toList, "off".toList]

/-- Read a truth value. -/
def boolean? (text : Text) : Option Bool :=
  let word := text.map Char.toLower
  if trueWords.contains word then some true
  else if falseWords.contains word then some false
  else none

/-- A truth value and its faults; a field without a variable has its default. -/
def readBoolean (environment : List (Text × Text)) (field : Field) (default : Bool) :
    Bool × List FieldFault :=
  match value? environment field with
  | none => (default, [])
  | some text =>
    match boolean? text with
    | some value => (value, [])
    | none => (default, [.notBoolean field])

/-- The strings of a list, counted from an index, and the faults of the other items. -/
def readKeys : (index : Nat) → List Json → List Text × List FieldFault
  | _, [] => ([], [])
  | index, item :: rest =>
    let (keys, faults) := readKeys (index + 1) rest
    match item with
    | .string key => (key :: keys, faults)
    | _ => (keys, .notText index :: faults)

/-- The settings that variables give. -/
def settings (environment : List (Text × Text)) : Except Fault Settings :=
  let standard : Settings := {}
  let text (field : Field) (default : Text) : Text := (value? environment field).getD default
  let keys : Option (List Text × List FieldFault) :=
    match value? environment .reservedLabelKeys with
    | none => some (standard.reservedLabelKeys, [])
    | some value =>
      match Json.ofText? value with
      | none => none
      | some .null => some (standard.reservedLabelKeys, [])
      | some (.array items) => some (readKeys 0 items)
      | some _ => some ([], [.notList])
  match keys with
  | none => .error .unreadableKeys
  | some (reservedLabelKeys, keyFaults) =>
    let (persistLabel, persistFaults) :=
      readBoolean environment .persistLabel standard.persistLabel
    let (debugMode, debugFaults) := readBoolean environment .debugMode standard.debugMode
    let faults := keyFaults ++ persistFaults ++ debugFaults
    if faults.isEmpty then
      .ok
        { directiveAction := text .directiveAction standard.directiveAction
          reservedLabelKeys
          forbiddenCharacters := text .forbiddenCharacters standard.forbiddenCharacters
          persistLabel
          inlineLabelDefault := text .inlineLabelDefault standard.inlineLabelDefault
          blockLabelDefault := text .blockLabelDefault standard.blockLabelDefault
          debugMode }
    else
      .error (.invalid faults)

end Environment

end HiddenContent
