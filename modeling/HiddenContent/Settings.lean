import HiddenContent.Attributes

/-!
# Settings

The settings name the one action that hides content, the keys that carry a label, the
characters that a token must not contain, and the labels that are shown when the author
gives none. A token is written from them alone; its attributes are in the canonical dialect.
-/

namespace HiddenContent

/-- What a directive hides: a run of text or whole lines. -/
inductive Mode where
  | inline
  | block
deriving DecidableEq, Repr

/-- The word that a token names its mode by. -/
def Mode.word : Mode → Text
  | inline => ['i', 'n', 'l', 'i', 'n', 'e']
  | block => ['b', 'l', 'o', 'c', 'k']

/-- What an installation may choose. -/
structure Settings where
  /-- The only action word that hides content. -/
  directiveAction : Text := "hide".toList
  /-- The keys whose values are labels, the preferred one first. -/
  reservedLabelKeys : List Text := ["placeholder".toList, "text".toList]
  /-- The characters that no key or value of a token may hold. -/
  forbiddenCharacters : Text := [',', ':', ';', '=', '{', '}', '[', ']']
  /-- True when a stored token keeps the label. -/
  persistLabel : Bool := false
  /-- The label of a hidden run without one of its own. -/
  inlineLabelDefault : Text := "Content hidden".toList
  /-- The label of a hidden block without one of its own. -/
  blockLabelDefault : Text := "Hidden Content".toList
  /-- True when the transitions of the block scan are reported at the lowest level. -/
  debugMode : Bool := false
deriving DecidableEq, Repr

namespace Settings

/-- True when a word names the action that hides content. -/
def acts (settings : Settings) (action : Text) : Bool := action == settings.directiveAction

/-- The token of a kind with the attributes that can be written. -/
def tokenOf (settings : Settings) (kind : Text) (attributes : Attributes) : Text :=
  let body := attributes.serialize settings.forbiddenCharacters .canonical
  let blob := if body.isEmpty then [] else ['{'] ++ body ++ ['}']
  ['['] ++ settings.directiveAction ++ ['-'] ++ kind ++ blob ++ [']']

/-- The token of a mode. -/
def token (settings : Settings) (mode : Mode) (attributes : Attributes) : Text :=
  settings.tokenOf mode.word attributes

/-- Read a blob in a dialect and take its label out. -/
def labelled (settings : Settings) (dialect : Dialect) (blob : Text) : Attributes.Labelled :=
  (Attributes.decode dialect blob).labelSplit settings.reservedLabelKeys

end Settings

end HiddenContent
