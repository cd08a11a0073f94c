import HiddenContent.Activity
import HiddenContent.FileTree.Pattern

/-!
# Jobs

A job processes the notes below one folder and writes what it makes of them below another. It
goes through four stages: checking what was asked for and choosing the notes, reading them,
processing them, and summing up. Each stage takes the job as the stage before left it. A stage
may end the job with a complaint; what it has reported and written by then remains. Two kinds of
faults are not met by any complaint and break the job off: a pattern that is none, and a path
where a folder cannot be made or that cannot even be looked at. Processing is given the formatter
of the pages of highlighted notes.
-/

namespace HiddenContent

/-- What came of processing. -/
structure Summary where
  activity : Activity
  noteCount : Nat
  written : List Text
  found : Option (List Text) := none
deriving DecidableEq, Repr

/-- Words with a comma between them. -/
def listed (words : List Text) : Text := ", ".toList.intercalate words

namespace Summary

/-- What is said of the notes that a search finds. -/
def foundWording (found : List Text) : Text :=
  let names := listed found
  "  Matches: ".toList ++ if names.isEmpty then "(none)".toList else names

/-- What is said when a job is done. -/
def report (summary : Summary) (folder : Path) : List Message :=
  [⟨1, "\n✓ ".toList ++ summary.activity.title ++ " successful!".toList⟩,
    ⟨1, "  Notes:   ".toList ++ Text.decimal summary.noteCount⟩,
    ⟨1, "  Written: ".toList ++ Text.decimal summary.written.length ++ " file(s) in ".toList ++
      folder.toText⟩] ++
    (summary.found.map fun found => (⟨1, foundWording found⟩ : Message)).toList

end Summary

/-- What is asked for, and what the stages have made of it so far. -/
structure Job where
  inputFolder : Option Path := none
  outputFolder : Path
  verbosity : Int := 1
  pattern : Option Text := some "*.md".toList
  activity : Text := Activity.encode.name
  wishes : Wishes := {}
  isChecked : Bool := false
  sources : List Path := []
  notes : Mapping Text := []
  outputs : Mapping Text := []
  summary : Option Summary := none
deriving DecidableEq, Repr

namespace Job

/-- Why a note is not read. -/
inductive Unread where
  | absent (fault : FileTree.Fault)
  | undecodable (fault : Utf8.Fault)
deriving DecidableEq, Repr

/-- Why notes are not processed. -/
inductive Unprocessed where
  | unknownActivity (word : Text)
  /-- The name of a note is that of a folder. -/
  | nameless (path : Path)
  | unwritten (fault : FileTree.Fault)
deriving DecidableEq, Repr

/-- Why a stage ends the job. -/
inductive Complaint where
  | inputMissing (folder : Option Path)
  | unknownActivity (word : Text)
  | nothingSelected (pattern : Text) (folder : Path)
  | unread (path : Path) (cause : Unread)
  | unprocessed (cause : Unprocessed)
  | notProcessed
deriving DecidableEq, Repr

/-- What breaks a job off. -/
inductive Breakdown where
  | pattern (fault : Pattern.Fault)
  | path (fault : FileTree.Fault)
  /-- A folder is needed and no path is given. -/
  | noPath
deriving DecidableEq, Repr

/-- How a job ends early. -/
inductive Failure where
  | complaint (complaint : Complaint)
  | breakdown (breakdown : Breakdown)
deriving DecidableEq, Repr

/-- The wording of a reason for not reading. -/
def Unread.wording : Unread → Text
  | absent fault => fault.wording
  | undecodable fault => fault.wording

/-- The wording of a reason for not processing. -/
def Unprocessed.wording : Unprocessed → Text
  | unknownActivity word => word.quoted
  | nameless path => "PosixPath(".toList ++ path.toText.quoted ++ ") has an empty name".toList
  | unwritten fault => fault.wording

/-- The wording of a complaint. -/
def Complaint.wording : Complaint → Text
  | inputMissing folder =>
    "Error: Input directory not found: ".toList ++ (folder.elim "None".toList Path.toText)
  | unknownActivity word =>
    "Error: Unknown mode \x27".toList ++ word ++ "\x27 (expected one of ".toList ++
      listed (Activity.all.map Activity.name) ++ [')']
  | nothingSelected pattern folder =>
    "Error: No notes match ".toList ++ pattern ++ " in ".toList ++ folder.toText
  | unread path cause =>
    "Error reading note ".toList ++ path.toText ++ ": ".toList ++ cause.wording
  | unprocessed cause => "Processing error: ".toList ++ cause.wording
  | notProcessed => "Error: Processing failed".toList

/-- The wording of a breakdown. -/
def Breakdown.wording : Breakdown → Text
  | pattern fault => fault.wording
  | path fault => fault.wording
  | noPath => "A folder has no path".toList

/-- What the stages of a job work on: the files, and what has been reported. -/
structure Workspace where
  files : FileTree
  reported : List Message := []
deriving DecidableEq, Repr

/-- A stage, or a part of one. -/
abbrev Stage (α : Type) := ExceptT Failure (StateM Workspace) α

namespace Stage

/-- Report messages. -/
def reports (messages : List Message) : Stage Unit :=
  modify fun workspace => { workspace with reported := workspace.reported ++ messages }

/-- Report a message. -/
def report (level : Nat) (wording : Text) : Stage Unit := reports [⟨level, wording⟩]

/-- Break the job off where a path makes it impossible to go on. -/
def orBreak {α : Type} : Except FileTree.Fault α → Stage α
  | .ok value => return value
  | .error fault => throw (.breakdown (.path fault))

/-- End the job with a complaint. -/
def complain {α : Type} (complaint : Complaint) : Stage α := throw (.complaint complaint)

/-- The files as they are now. -/
def files : Stage FileTree := return (← get).files

/-- Leave the files in another state. -/
def setFiles (tree : FileTree) : Stage Unit :=
  modify fun workspace => { workspace with files := tree }

end Stage

open Stage

/-! ## Checking -/

/-- What is shown first to a reader who wants to know more. -/
def banner : Text :=
  Text.ofLines
    (["",
      "  _     _     _                          _",
      " | |__ (_) __| | ___ _ __ ___   __ _ _ __| | __",
      " | \x27_ \\| |/ _\x60 |/ _ \\ \x27_ \x60 _ \\ / _\x60 | \x27__| |/ /",
      " | | | | | (_| |  __/ | | | | | (_| | |  |   <",
      " |_| |_|_|\\__,_|\\___|_| |_| |_|\\__,_|_|  |_|\\_\\",
      "",
      "  Hidden-content directives for plain text notes",
      ""].map String.toList)

/-- The input folder, which has to be there. -/
def presentInput (job : Job) : Stage Path := do
  match job.inputFolder with
  | some folder =>
    if ← orBreak ((← files).isFolder folder) then return folder
    else complain (.inputMissing (some folder))
  | none => complain (.inputMissing none)

/-- Read the pattern. -/
def readPattern (job : Job) : Stage (Text × Pattern) := do
  match job.pattern with
  | none => throw (.breakdown (.pattern .missing))
  | some spelled =>
    match Pattern.ofText? spelled with
    | .error fault => throw (.breakdown (.pattern fault))
    | .ok pattern => return (spelled, pattern)

/-- The notes that the pattern selects, of which there has to be one. -/
def selectedSources (job : Job) (folder : Path) : Stage (List Path) := do
  let (spelled, pattern) ← job.readPattern
  let sources ← orBreak (pattern.files (← files) folder)
  if sources.isEmpty then complain (.nothingSelected spelled folder)
  report 2 ("Found ".toList ++ Text.decimal sources.length ++ " note(s) matching ".toList ++
    spelled)
  return sources

/-- Make the folder for the results. -/
def makeOutputFolder (job : Job) : Stage Unit := do
  setFiles (← orBreak ((← files).makeFolder job.outputFolder))

/-- Check what is asked for and choose the notes. -/
def check (job : Job) : Stage Job := do
  report 2 banner
  report 2 "Checking environment...".toList
  let folder ← job.presentInput
  if (Activity.ofName? job.activity).isNone then complain (.unknownActivity job.activity)
  let sources ← job.selectedSources folder
  job.makeOutputFolder
  report 2 ("Output directory: ".toList ++ job.outputFolder.toText)
  return { job with sources, isChecked := true }

/-! ## Reading -/

/-- The text of a note, its line ends as line feeds. -/
def readNote (path : Path) : Stage Text := do
  match (← files).readFile path with
  | .error fault => complain (.unread path (.absent fault))
  | .ok bytes =>
    match Utf8.decode bytes with
    | .error fault => complain (.unread path (.undecodable fault))
    | .ok text => return text.withLineFeeds

/-- Read notes one after the other, each under its name below the input folder. -/
def readNotes (folder : Path) : (notes : Mapping Text) → List Path → Stage (Mapping Text)
  | notes, [] => return notes
  | notes, path :: rest => do
    let name := (path.relativeTo folder).toText
    let text ← readNote path
    report 3 ("Read ".toList ++ Text.decimal text.length ++ " characters from ".toList ++ name)
    readNotes folder (notes.insert name text) rest

/-- Read the chosen notes. -/
def read (job : Job) : Stage Job := do
  report 1 "Reading notes...".toList
  let notes ← readNotes (job.inputFolder.getD { parts := [] }) [] job.sources
  report 2 ("Read ".toList ++ Text.decimal notes.length ++ " note(s)".toList)
  return { job with notes }

/-! ## Processing -/

/-- Write a result below a folder, and make the folders on the way to it. -/
def written (tree : FileTree) (target : Path) (content : Text) :
    Except FileTree.Fault FileTree := do
  (← tree.makeFolder target.parent).writeFile target content.encode

/-- Write results one after the other. -/
def writeOutputs (folder : Path) : (outputs : Mapping Text) → Stage Unit
  | [] => return
  | (name, content) :: rest => do
    let target := folder ++ Path.ofText name
    match written (← files) target content with
    | .error fault => complain (.unprocessed (.unwritten fault))
    | .ok tree =>
      setFiles tree
      report 3 ("Wrote ".toList ++ target.toText)
      writeOutputs folder rest

/-- The results, and for a search the notes that it finds. -/
def results (format : Highlight.Formatter) (job : Job) (activity : Activity) :
    Stage (Mapping Text × Option (List Text)) := do
  match activity with
  | .search =>
    reports (job.wishes.selectedReport job.notes)
    let found := job.wishes.selected job.notes
    return (job.wishes.matchList found, some found)
  | _ =>
    reports (job.wishes.outputsReport format activity job.notes)
    match job.wishes.outputs format activity job.notes with
    | .ok outputs => return (outputs, none)
    | .error path => complain (.unprocessed (.nameless path))

/-- Process the notes and write the results. -/
def process (format : Highlight.Formatter) (job : Job) : Stage Job := do
  report 1 ("Processing notes (".toList ++ job.activity ++ ")...".toList)
  match Activity.ofName? job.activity with
  | none => complain (.unprocessed (.unknownActivity job.activity))
  | some activity =>
    let (outputs, found) ← job.results format activity
    writeOutputs job.outputFolder outputs
    let summary : Summary :=
      { activity, noteCount := job.notes.length, written := outputs.keys, found }
    return { job with outputs, summary := some summary }

/-! ## Summing up -/

/-- Say what came of the job. -/
def sumUp (job : Job) : Stage Job := do
  match job.summary with
  | none => complain .notProcessed
  | some summary =>
    reports (summary.report job.outputFolder)
    return job

/-- All stages of a job. -/
def run (format : Highlight.Formatter) (job : Job) : Stage Job := do
  sumUp (← process format (← read (← check job)))

end Job

end HiddenContent
