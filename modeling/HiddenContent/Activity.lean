import HiddenContent.FileTree.Path
import HiddenContent.Highlight
import HiddenContent.Node.Json
import HiddenContent.Render
import HiddenContent.Report.Resolve

/-!
# What is made of notes

A collection of notes can be encoded, resolved, searched or highlighted. Encoding keeps the
names of the notes. Resolving makes of each note the tree of its nodes and a rendered preview,
and highlighting a page of its source, as a formatter makes it; these are named after the note
without its suffix, so a later note may take the place of an earlier one. A search makes one list
of the notes whose visible text has all keywords, and encodes each note first so that nothing
hidden is found.
-/

namespace HiddenContent

/-- What can be made of notes. -/
inductive Activity where
  | encode
  | resolve
  | search
  | highlight
deriving DecidableEq, Repr

namespace Activity

/-- All activities in the order in which they are offered. -/
def all : List Activity := [.encode, .resolve, .search, .highlight]

/-- The word for an activity. -/
def name : Activity → Text
  | encode => "encode".toList
  | resolve => "resolve".toList
  | search => "search".toList
  | highlight => "highlight".toList

/-- The word at the beginning of a sentence. -/
def title (activity : Activity) : Text := activity.name.modifyHead Char.toUpper

/-- The activity that a word names. -/
def ofName? (word : Text) : Option Activity := all.find? fun activity => activity.name == word

end Activity

/-- The wishes of the reader for whom notes are processed. -/
structure Wishes where
  settings : Settings := {}
  /-- What a search looks for; a predicate that is missing looks for nothing. -/
  predicates : List (Option Text) := []
  reveal : Bool := false
deriving DecidableEq, Repr

namespace Wishes

/-! ## One note -/

/-- What an encoded note is written as. -/
def encoded (wishes : Wishes) (name text : Text) : Mapping Text :=
  [(name, wishes.settings.encode text)]

/-- What a resolved note is written as, when its name without suffix is given. -/
def resolved (wishes : Wishes) (stem text : Text) : Mapping Text :=
  let nodes := Resolve.document wishes.settings (segment text)
  let view : View := { reveal := wishes.reveal, settings := wishes.settings }
  Mapping.ofList
    [(stem ++ ".json".toList, (Json.array (Node.toJsons nodes)).toText ++ ['\n']),
      (stem ++ ".html".toList, Render.nodes Registry.builtin view nodes ++ ['\n'])]

/-- What a highlighted note is written as, when its name without suffix is given. -/
def highlighted (format : Highlight.Formatter) (stem name text : Text) : Mapping Text :=
  [(stem ++ ".html".toList, Highlight.page format name text)]

/-- The name of a note without its suffix. The path of a folder has no name. -/
def stem (name : Text) : Except Path Text :=
  let path := Path.ofText name
  match path.withoutSuffix? with
  | some stem => .ok stem.toText
  | none => .error path

/-- What is made of a note on its own; a search makes nothing of one note. -/
def noteOutputs (wishes : Wishes) (format : Highlight.Formatter) (activity : Activity)
    (name text : Text) : Except Path (Mapping Text) :=
  match activity with
  | .encode => .ok (wishes.encoded name text)
  | .resolve => (stem name).map fun stem => wishes.resolved stem text
  | .highlight => (stem name).map fun stem => highlighted format stem name text
  | .search => .ok []

/-- What making something of a note on its own reports. -/
def noteReport (wishes : Wishes) (activity : Activity) (text : Text) : List Message :=
  match activity with
  | .encode => wishes.settings.encodeReport text
  | .resolve => Resolve.documentReport wishes.settings (segment text)
  | .highlight | .search => []

/-! ## All notes -/

/-- Make something of notes one after the other, besides what has been made. -/
def outputsAfter (wishes : Wishes) (format : Highlight.Formatter) (activity : Activity) :
    (made : Mapping Text) → (notes : Mapping Text) → Except Path (Mapping Text)
  | made, [] => .ok made
  | made, (name, text) :: rest => do
    let outputs ← wishes.noteOutputs format activity name text
    outputsAfter wishes format activity (made.update outputs) rest

/-- What is made of notes one after the other. -/
def outputs (wishes : Wishes) (format : Highlight.Formatter) (activity : Activity)
    (notes : Mapping Text) : Except Path (Mapping Text) :=
  wishes.outputsAfter format activity [] notes

/-- What making something of notes reports, up to the first of which nothing can be made. -/
def outputsReport (wishes : Wishes) (format : Highlight.Formatter) (activity : Activity) :
    (notes : Mapping Text) → List Message
  | [] => []
  | (name, text) :: rest =>
    wishes.noteReport activity text ++
      match wishes.noteOutputs format activity name text with
      | .ok _ => outputsReport wishes format activity rest
      | .error _ => []

/-! ## Searching -/

/-- The predicates that are there. -/
def givenPredicates (wishes : Wishes) : List Text := wishes.predicates.filterMap id

/-- True when the visible text of a note has all keywords. -/
def selects (wishes : Wishes) (text : Text) : Bool :=
  Search.isMatch wishes.settings (wishes.settings.encode text) wishes.givenPredicates

/-- The names of the notes that a search selects. -/
def selected (wishes : Wishes) (notes : Mapping Text) : List Text :=
  (notes.filter fun (_, text) => wishes.selects text).map Prod.fst

/-- The name of the list of matches. -/
def matchesName : Text := "matches.json".toList

/-- A predicate as it is listed with the matches; a missing one is an empty list. -/
def predicateJson (predicate : Option Text) : Json := predicate.elim (.array []) .string

/-- What a search is written as. -/
def matchList (wishes : Wishes) (names : List Text) : Mapping Text :=
  let list := Json.object
    [("filter".toList, .array (wishes.predicates.map predicateJson)),
      ("matches".toList, .array (names.map .string))]
  [(matchesName, list.toText ++ ['\n'])]

/-- What searching notes reports, the number of those that are selected last. -/
def selectedReport (wishes : Wishes) (notes : Mapping Text) : List Message :=
  notes.flatMap (fun (_, text) =>
      wishes.settings.encodeReport text ++
        Search.matchReport wishes.settings (wishes.settings.encode text) wishes.givenPredicates) ++
    [⟨2, Text.decimal (wishes.selected notes).length ++ " of ".toList ++
      Text.decimal notes.length ++ " note(s) match".toList⟩]

end Wishes

end HiddenContent
