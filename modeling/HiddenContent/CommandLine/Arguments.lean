import HiddenContent.Activity
import HiddenContent.Text.Digit
import HiddenContent.Text.Quoted

/-!
# The arguments of the command line

Two folders are named, and options may stand before, between and after them. A long option may
be cut short as long as only one option begins so, and its value may follow an equals sign.
Short options may be run together, also after an equals sign. After two hyphens on their own
nothing is an option; where a value has to be they stand for none. An argument with a space is no
option unless it begins like one, and neither is a number.

Arguments are first told apart and then read from left to right. An option that is cut too
short is therefore refused before anything else happens, while a request for the version is
answered before anything after it is looked at.
-/

namespace HiddenContent

namespace Arguments

/-- What an option does. -/
inductive Effect where
  | help
  | version
  | raiseVerbosity
  | reveal
  | nothing
  | setPattern
  | setActivity
  | addPredicate
deriving DecidableEq, Repr

/-- True when an option takes a value. -/
def Effect.takesValue : Effect → Bool
  | setPattern | setActivity | addPredicate => true
  | help | version | raiseVerbosity | reveal | nothing => false

/-- An option with its spellings and what it is for. -/
structure Choice where
  spellings : List Text
  effect : Effect
  purpose : Text
deriving DecidableEq, Repr

/-- The options in the order in which they are listed. -/
def choices : List Choice :=
  [⟨["-h".toList, "--help".toList], .help, "show this text".toList⟩,
    ⟨["--inputFile".toList], .setPattern, "the notes to read, as a pattern".toList⟩,
    ⟨["--mode".toList], .setActivity, "what is made of the notes".toList⟩,
    ⟨["--filter".toList], .addPredicate, "what a search looks for".toList⟩,
    ⟨["--reveal".toList], .reveal, "render what is hidden".toList⟩,
    ⟨["-v".toList, "--verbosity".toList], .raiseVerbosity, "say more".toList⟩,
    ⟨["-V".toList, "--version".toList], .version, "show the version".toList⟩,
    ⟨["--saveinputmeta".toList], .nothing, "accepted and ignored".toList⟩,
    ⟨["--saveoutputmeta".toList], .nothing, "accepted and ignored".toList⟩]

/-- Every spelling with its option. -/
def spellings : List (Text × Choice) :=
  choices.flatMap fun choice => choice.spellings.map fun spelling => (spelling, choice)

/-- The names of the two folders. -/
def folderNames : List Text := ["inputdir".toList, "outputdir".toList]

/-- What is wrong with the use of an option. -/
inductive Misuse where
  | valueMissing
  | valueIgnored (value : Text)
  | unknownActivity (word : Text)
deriving DecidableEq, Repr

/-- Why arguments are refused. -/
inductive Fault where
  | ambiguous (given : Text) (candidates : List Text)
  | missing (names : List Text)
  | unrecognized (words : List Text)
  | misuse (choice : Choice) (problem : Misuse)
deriving DecidableEq, Repr

/-- The wording of a misuse. -/
def Misuse.wording : Misuse → Text
  | valueMissing => "expected one argument".toList
  | valueIgnored value => "ignored explicit argument ".toList ++ value.quoted
  | unknownActivity word =>
    "invalid choice: ".toList ++ word.quoted ++ " (choose from ".toList ++
      ", ".toList.intercalate (Activity.all.map fun activity => activity.name.quoted) ++ [')']

/-- The wording of a fault. -/
def Fault.wording : Fault → Text
  | ambiguous given candidates =>
    "ambiguous option: ".toList ++ given ++ " could match ".toList ++
      ", ".toList.intercalate candidates
  | missing names =>
    "the following arguments are required: ".toList ++ ", ".toList.intercalate names
  | unrecognized words => "unrecognized arguments: ".toList ++ [' '].intercalate words
  | misuse choice problem =>
    "argument ".toList ++ ['/'].intercalate choice.spellings ++ ": ".toList ++ problem.wording

/-! ## Telling arguments apart -/

/-- How an argument gives a value to the option that it names. -/
inductive Given where
  | nothing
  /-- After an equals sign. -/
  | afterEquals (value : Text)
  /-- Behind a short option; it may be the next short options instead. -/
  | attached (value : Text)
deriving DecidableEq, Repr

/-- What an argument is. -/
inductive Word where
  /-- A folder, or the value of an option. -/
  | plain (text : Text)
  /-- Two hyphens that end the options, and the arguments after them. -/
  | stop (rest : List Text)
  /-- An option, and what is written with it. -/
  | option (choice : Choice) (given : Given)
  /-- What looks like an option and is none. -/
  | unknown (text : Text)
deriving DecidableEq, Repr

/-- Two hyphens. -/
def hyphens : Text := ['-', '-']

/-- A text without the line feed that may end it. -/
def withoutLineFeed (text : Text) : Text :=
  if text.getLast? = some '\n' then text.dropLast else text

/-- True for a number with a minus sign, also when a line feed ends it. -/
def isNegative (text : Text) : Bool :=
  match text with
  | '-' :: rest =>
    let number := withoutLineFeed rest
    match number.dropWhile Text.isDecimal with
    | [] => !number.isEmpty
    | '.' :: digits => !digits.isEmpty && digits.all Text.isDecimal
    | _ => false
  | _ => false

/-- The options that a text which is no spelling may mean. -/
def candidates (text : Text) : List (Text × Choice × Given) :=
  if hyphens.isPrefixOf text then
    let (beginning, given) :=
      match Text.cut? ['='] text with
      | some (before, after) => (before, Given.afterEquals after)
      | none => (text, Given.nothing)
    (spellings.filter fun (spelling, _) => beginning.isPrefixOf spelling).map
      fun (spelling, choice) => (spelling, choice, given)
  else
    (spellings.filter fun (spelling, _) => spelling == text.take 2).map
      fun (spelling, choice) => (spelling, choice, Given.attached (text.drop 2))

/-- What stands after an equals sign behind an option with this spelling. Behind a short option it
    is as good as attached, unless it is empty. -/
def Given.behind (spelling after : Text) : Given :=
  if hyphens.isPrefixOf spelling || after.isEmpty then .afterEquals after else .attached after

/-- The option with exactly this spelling, before an equals sign or at the end. -/
def spelled? (text : Text) : Option Word :=
  match spellings.lookup text with
  | some choice => some (.option choice .nothing)
  | none => do
    let (before, after) ← Text.cut? ['='] text
    let choice ← spellings.lookup before
    return .option choice (.behind before after)

/-- Tell what an argument is that stands before the end of the options. -/
def Word.ofText? (text : Text) : Except Fault Word :=
  match text with
  | '-' :: _ :: _ =>
    match spelled? text, candidates text with
    | some word, _ => .ok word
    | none, [(_, choice, given)] => .ok (.option choice given)
    | none, [] =>
      if isNegative text || text.contains ' ' then .ok (.plain text) else .ok (.unknown text)
    | none, several => .error (.ambiguous text (several.map Prod.fst))
  | _ => .ok (.plain text)

/-- Tell what each argument is. -/
def words : List Text → Except Fault (List Word)
  | [] => .ok []
  | text :: rest => do
    if text = hyphens then return [.stop rest]
    let word ← Word.ofText? text
    return word :: (← words rest)

/-! ## Reading -/

/-- What the options of a command say. A value is missing when two hyphens stand for it. -/
structure Options where
  verbosity : Int := 1
  pattern : Option Text := some "*.md".toList
  activity : Option Activity := some .encode
  predicates : List (Option Text) := []
  reveal : Bool := false
deriving DecidableEq, Repr

/-- The value that a text gives; two hyphens give none. -/
def value? (text : Text) : Option Text := if text = hyphens then none else some text

/-- Why no command comes of the arguments. -/
inductive Interruption where
  | help
  | version
  | fault (fault : Fault)
deriving DecidableEq, Repr

/-- Apply an option with its value, if it has one. -/
def Options.apply (options : Options) (choice : Choice) (value : Option Text) :
    Except Interruption Options :=
  match choice.effect with
  | .help => .error .help
  | .version => .error .version
  | .raiseVerbosity => .ok { options with verbosity := options.verbosity + 1 }
  | .reveal => .ok { options with reveal := true }
  | .nothing => .ok options
  | .setPattern => .ok { options with pattern := value }
  | .setActivity =>
    match value with
    | none => .ok { options with activity := none }
    | some word =>
      match Activity.ofName? word with
      | some activity => .ok { options with activity := some activity }
      | none => .error (.fault (.misuse choice (.unknownActivity word)))
  | .addPredicate => .ok { options with predicates := options.predicates ++ [value] }

/-- Apply options one after the other. -/
def Options.applyAll (options : Options) (choices : List (Choice × Option Text)) :
    Except Interruption Options :=
  choices.foldlM (fun applied (choice, value) => applied.apply choice value) options

/-- Options that were written together: those to apply, with their values, and the last one when
    its value is still to come. -/
structure Cluster where
  applied : List (Choice × Option Text) := []
  waiting : Option Choice := none
deriving DecidableEq, Repr

/-- An option on its own. -/
def Cluster.alone (choice : Choice) : Cluster :=
  if choice.effect.takesValue then { waiting := some choice }
  else { applied := [(choice, none)] }

/-- An option with a value after an equals sign. -/
def Cluster.withValue (choice : Choice) (text : Text) : Except Fault Cluster :=
  if choice.effect.takesValue then .ok { applied := [(choice, value? text)] }
  else .error (.misuse choice (.valueIgnored text))

/-- A short option and what is attached to it: its value if it takes one, and else more short
    options. -/
def Cluster.ofAttached (choice : Choice) : (attached : Text) → Except Fault Cluster
  | [] => .ok (.alone choice)
  | letter :: rest =>
    if choice.effect.takesValue then Cluster.withValue choice (letter :: rest)
    else
      match spellings.lookup ['-', letter] with
      | none => .error (.misuse choice (.valueIgnored (letter :: rest)))
      | some next => do
        let cluster ← Cluster.ofAttached next rest
        return { cluster with applied := (choice, none) :: cluster.applied }

/-- The options that one argument gives. -/
def Cluster.ofGiven (choice : Choice) : Given → Except Fault Cluster
  | .nothing => .ok (.alone choice)
  | .afterEquals value => Cluster.withValue choice value
  | .attached value => Cluster.ofAttached choice value

/-- What has been gathered from the arguments so far. Two hyphens may stand for a folder too. -/
structure Gathered where
  options : Options := {}
  folders : List (Option Text) := []
  unrecognized : List Text := []
deriving DecidableEq, Repr

/-- True when both folders are named. -/
def Gathered.isFull (gathered : Gathered) : Bool :=
  gathered.folders.length ≥ folderNames.length

/-- Take arguments that say nothing. -/
def Gathered.takeUnknown (gathered : Gathered) (texts : List Text) : Gathered :=
  { gathered with unrecognized := gathered.unrecognized ++ texts }

/-- Take options in order. -/
def Gathered.takeOptions (gathered : Gathered) (choices : List (Choice × Option Text)) :
    Except Interruption Gathered := do
  return { gathered with options := ← gathered.options.applyAll choices }

/-- Take a plain argument as a folder, or as one too many. -/
def Gathered.takePlain (gathered : Gathered) (text : Text) : Gathered :=
  if gathered.isFull then gathered.takeUnknown [text]
  else { gathered with folders := gathered.folders ++ [value? text] }

/-- Take an argument that stands beside the two hyphens at the end of the options, and is what it
    says even when it is two hyphens itself. -/
def Gathered.takeBeside (gathered : Gathered) (text : Text) : Gathered :=
  { gathered with folders := gathered.folders ++ [some text] }

/-- Take what follows the end of the options. The two hyphens themselves belong to the folder
    before them, or else to the first folder after them, and are one argument too many when there
    is neither. -/
def Gathered.takeRest (gathered : Gathered) (afterFolder : Bool) (rest : List Text) : Gathered :=
  match afterFolder, gathered.isFull, rest with
  | false, false, first :: others => others.foldl Gathered.takePlain (gathered.takeBeside first)
  | true, _, rest => rest.foldl Gathered.takePlain gathered
  | _, _, rest => rest.foldl Gathered.takePlain (gathered.takeUnknown [hyphens])

/-- Gather from left to right; `afterFolder` says whether the last argument was a folder. -/
def gather (gathered : Gathered) (afterFolder : Bool) : List Word → Except Interruption Gathered
  | [] => .ok gathered
  | .stop rest :: _ => .ok (gathered.takeRest afterFolder rest)
  | .plain text :: rest => gather (gathered.takePlain text) (!gathered.isFull) rest
  | .unknown text :: rest => gather (gathered.takeUnknown [text]) false rest
  | .option choice given :: rest => do
    let cluster ← (Cluster.ofGiven choice given).mapError .fault
    match cluster.waiting, rest with
    | none, rest => gather (← gathered.takeOptions cluster.applied) false rest
    | some last, .plain text :: rest =>
      gather (← gathered.takeOptions (cluster.applied ++ [(last, value? text)])) false rest
    | some last, _ => .error (.fault (.misuse last .valueMissing))

/-- A command: its two folders, either of which may be missing, and its options. -/
structure Command where
  input : Option Path
  output : Option Path
  options : Options
deriving DecidableEq, Repr

/-- The command that gathered arguments make. -/
def Command.ofGathered? (gathered : Gathered) : Except Fault Command :=
  match gathered.folders with
  | [input, output] =>
    if gathered.unrecognized.isEmpty then
      .ok { input := input.map .ofText, output := output.map .ofText, options := gathered.options }
    else .error (.unrecognized gathered.unrecognized)
  | folders => .error (.missing (folderNames.drop folders.length))

/-- Read the arguments of a command. -/
def Command.ofArguments? (arguments : List Text) : Except Interruption Command := do
  let words ← (words arguments).mapError .fault
  let gathered ← gather {} false words
  (Command.ofGathered? gathered).mapError .fault

end Arguments

end HiddenContent
