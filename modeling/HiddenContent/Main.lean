import HiddenContent.CommandLine
import HiddenContent.Environment

/-!
# The program

Reads the arguments, the settings of the environment and the files that a command can reach,
runs the command on them, and writes what it has changed. What the command does is said
elsewhere; here it only meets the system. The formatter of highlighted pages comes from whoever
runs the program.
-/

namespace HiddenContent

namespace Program

/-- The variables that can hold settings, in capitals or in small letters. -/
def environment : IO (List (Text × Text)) := do
  let names := Environment.Field.all.map fun field => Environment.commonBeginning ++ field.name
  let spelled := names.flatMap fun name => [name, name.map Char.toUpper]
  spelled.filterMapM fun name => do
    return (← IO.getEnv (String.ofList name)).map fun value => (name, value.toList)

/-- What the system knows about a path. -/
def entryAt (path : Path) : IO IO.FS.DirEntry := do
  return { root := ← IO.currentDir, fileName := String.ofList path.toText }

/-- The place of the working folder. -/
def workingFolder : IO Place := do
  return (Path.ofText (← IO.currentDir).toString.toList).parts

/-- The place of a path, by its spelling. -/
def placeOf (workingFolder : Place) (path : Path) : Place :=
  path.parts.foldl
    (fun place part => if part = Path.above then place.dropLast else place ++ [part])
    (if path.isAbsolute then [] else workingFolder)

/-- What stands somewhere in the system, and all that stands below it. -/
partial def entriesBelow (place : Place) (entry : IO.FS.DirEntry) :
    IO (List (Place × Entry)) := do
  if ← entry.path.isDir then
    let children ← entry.path.readDir
    let below ← children.toList.mapM fun child =>
      entriesBelow (place ++ [child.fileName.toList]) child
    return (place, .folder) :: below.flatten
  else if ← entry.path.pathExists then
    return [(place, .file (← IO.FS.readBinFile entry.path).toList)]
  else return []

/-- The folders on the way to a path. -/
def entriesAbove (workingFolder : Place) (path : Path) : IO (List (Place × Entry)) := do
  let lengths := List.range path.parts.length
  let onTheWay := lengths.map fun length => { path with parts := path.parts.take length }
  let present ← onTheWay.filterM fun path => do return ← (← entryAt path).path.isDir
  return present.map fun path => (placeOf workingFolder path, .folder)

/-- The folder below which all files lie that a pattern can select. -/
def searched (pattern : Option Text) (input : Path) : Path :=
  let parts := (Path.ofText (pattern.getD [])).parts
  { input with parts := input.parts ++ parts.filter (· == Path.above) }

/-- The files that a command can reach. -/
def filesFor (options : Arguments.Options) (input output : Path) : IO FileTree := do
  let here ← workingFolder
  let source := searched options.pattern input
  let sourcePlace := placeOf here source
  let above ← [input, output, source].flatMapM (entriesAbove here)
  let sources ← entriesBelow sourcePlace (← entryAt source)
  let results ← entriesBelow (placeOf here output) (← entryAt output)
  let roots := (List.range here.length).map fun length => (here.take (length + 1), Entry.folder)
  let others := (roots ++ above ++ results).filter fun (place, _) =>
    !sourcePlace.isPrefixOf place
  return { entries := sources ++ others, workingFolder := here }

/-- Write what has changed. -/
def store (changes : List (Place × Entry)) : IO Unit := do
  for (place, entry) in changes.reverse do
    let target := String.ofList ({ root := ['/'], parts := place } : Path).toText
    match entry with
    | .folder => IO.FS.createDirAll target
    | .file bytes => IO.FS.writeBinFile target ⟨bytes.toArray⟩

/-- Print an ending and give its status. -/
def finish (ending : CommandLine.Ending) : IO UInt32 := do
  IO.print (String.ofList ending.output)
  IO.eprint (String.ofList ending.errors)
  return UInt32.ofNat ending.status

/-- Run the command that arguments make. -/
def run (format : Highlight.Formatter) (settings : Settings) (arguments : List Text) :
    IO UInt32 := do
  let files ←
    match Arguments.Command.ofArguments? arguments with
    | .ok { input := some input, output := some output, options } =>
      filesFor options input output
    | _ => pure {}
  let outcome := CommandLine.run format settings arguments files
  store (outcome.files.changesSince files)
  for message in outcome.reported do
    IO.eprintln s!"{message.levelName} {String.ofList message.wording}"
  match outcome.ending with
  | .ok ending => finish ending
  | .error breakdown =>
    finish { status := 1, errors := CommandLine.line breakdown.wording }

/-- Run the program. -/
def main (format : Highlight.Formatter) (arguments : List String) : IO UInt32 := do
  match Environment.settings (← environment) with
  | .ok settings => run format settings (arguments.map String.toList)
  | .error fault => finish { status := 1, errors := CommandLine.line fault.wording }

end Program

end HiddenContent
