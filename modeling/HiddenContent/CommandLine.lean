import HiddenContent.CommandLine.Arguments
import HiddenContent.Job

/-!
# The command line

A command names the folder of the notes, the folder for the results and what is to be made of
the notes. The folder for the results is made first, then the other one is looked for, and then
the job runs. Only a breakdown of the job has no ending of its own.
-/

namespace HiddenContent

namespace CommandLine

/-- The name of the program. -/
def programName : Text := "hidemark".toList

/-- The version of the program. -/
def version : Text := "1.0.0".toList

/-- How a command ends: the exit status and what it prints. -/
structure Ending where
  status : Nat
  output : Text := []
  errors : Text := []
deriving DecidableEq, Repr

/-- What comes of a command: its ending, what it reports, and the files that it leaves. -/
structure Outcome where
  ending : Except Job.Breakdown Ending
  reported : List Message := []
  files : FileTree

/-- A line that is printed. -/
def line (text : Text) : Text := text ++ ['\n']

/-- The line of the help text for an option. -/
def helpLine (choice : Arguments.Choice) : Text :=
  let spelled := ", ".toList.intercalate choice.spellings
  let value := if choice.effect.takesValue then " VALUE".toList else []
  line ("  ".toList ++ spelled ++ value ++ ": ".toList ++ choice.purpose)

/-- The help text. -/
def helpText : Text :=
  line ("usage: ".toList ++ programName ++ " [options] ".toList ++
      [' '].intercalate Arguments.folderNames) ++
    Arguments.choices.flatMap helpLine

/-- How a command ends that never becomes a job. -/
def interruptedEnding : Arguments.Interruption → Ending
  | .help => { status := 0, output := helpText }
  | .version => { status := 0, output := line (programName ++ [' '] ++ version) }
  | .fault fault =>
    { status := 2, errors := line (programName ++ ": error: ".toList ++ fault.wording) }

/-- How a command ends when there is no folder at a path. -/
def noFolderEnding (path : Path) : Ending :=
  { status := 1, errors := line ("Not a directory: ".toList ++ path.toText) }

/-- How a command ends with its job. -/
def jobEnding {α : Type} : Except Job.Failure α → Except Job.Breakdown Ending
  | .ok _ => .ok { status := 0 }
  | .error (.complaint complaint) => .ok { status := 1, errors := line complaint.wording }
  | .error (.breakdown breakdown) => .error breakdown

/-- How a missing word is shown. -/
def missingWord : Text := ['[', ']']

/-- The job that options describe for two folders. -/
def jobOf (settings : Settings) (options : Arguments.Options) (input output : Path) : Job :=
  { inputFolder := some input
    outputFolder := output
    verbosity := options.verbosity
    pattern := options.pattern
    activity := options.activity.elim missingWord Activity.name
    wishes := { settings, predicates := options.predicates, reveal := options.reveal } }

/-- Run a job, and keep the messages that its verbosity shows. -/
def runJob (format : Highlight.Formatter) (job : Job) (files : FileTree) : Outcome :=
  let (result, workspace) := (Job.run format job).run { files }
  { ending := jobEnding result
    reported := workspace.reported.filter (Message.shownAt job.verbosity)
    files := workspace.files }

/-- Make the folder for the results, unless it is there; false when something else is there. -/
def prepare (files : FileTree) (output : Path) : Except FileTree.Fault (Bool × FileTree) := do
  match ← files.look output with
  | some .folder => return (true, files)
  | some (.file _) => return (false, files)
  | none => return (true, ← files.makeNewFolder output)

/-- Run a command in two folders. -/
def runIn (format : Highlight.Formatter) (settings : Settings) (options : Arguments.Options)
    (input output : Path) (files : FileTree) : Outcome :=
  match prepare files output with
  | .error fault => { ending := .error (.path fault), files }
  | .ok (false, files) => { ending := .ok (noFolderEnding output), files }
  | .ok (true, files) =>
    match files.isFolder input with
    | .error fault => { ending := .error (.path fault), files }
    | .ok false => { ending := .ok (noFolderEnding input), files }
    | .ok true => runJob format (jobOf settings options input output) files

/-- Run a command in its folders. -/
def runCommand (format : Highlight.Formatter) (settings : Settings)
    (command : Arguments.Command) (files : FileTree) : Outcome :=
  match command.input, command.output with
  | some input, some output => runIn format settings command.options input output files
  | _, _ => { ending := .error .noPath, files }

/-- Run the command that arguments make. -/
def run (format : Highlight.Formatter) (settings : Settings) (arguments : List Text)
    (files : FileTree) : Outcome :=
  match Arguments.Command.ofArguments? arguments with
  | .error interruption => { ending := .ok (interruptedEnding interruption), files }
  | .ok command => runCommand format settings command files

end CommandLine

end HiddenContent
