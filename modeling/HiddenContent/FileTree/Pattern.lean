import HiddenContent.FileTree

/-!
# Patterns for files

A pattern describes paths below a folder part by part. In a part a star stands for any run of
characters, a question mark for any character, and brackets for one character of a set; a part
without these is a name. Two stars alone stand for any number of folders.

In brackets a hyphen between two characters stands for all characters from the one to the
other. A range that runs backwards is empty, and its ends do not count. A closing bracket that
comes first is a member of the set, and an exclamation mark that comes first takes all
characters that the rest does not describe. A bracket that is never closed stands for itself.
-/

namespace HiddenContent

namespace Pattern

/-- What brackets describe: single characters and ranges, or all others. -/
structure CharacterSet where
  negated : Bool
  ranges : List (Char × Char)
deriving DecidableEq, Repr

/-- True for the characters of the set. -/
def CharacterSet.contains (set : CharacterSet) (c : Char) : Bool :=
  set.negated != set.ranges.any fun (low, high) => low ≤ c && c ≤ high

/-- What one stretch of a name has to be. -/
inductive Glyph where
  | literal (c : Char)
  | anyCharacter
  | anyRun
  | oneOf (set : CharacterSet)
deriving DecidableEq, Repr

/-! ## Brackets -/

/-- Take a character that may stand first. -/
def takeFirst (c : Char) (text : Text) : Text × Text :=
  match text with
  | d :: rest => if c = d then ([c], rest) else ([], text)
  | [] => ([], [])

/-- What stands in brackets, read after the opening one. -/
def bracketed? (text : Text) : Option Text :=
  let (mark, unmarked) := takeFirst '!' text
  let (member, others) := takeFirst ']' unmarked
  (Text.cut? [']'] others).map fun (inside, _) => mark ++ member ++ inside

/-- Cut at the hyphens of ranges. A hyphen makes a range after at least `held` more characters;
    one right after a range is a member. -/
def cutRanges : (held : Nat) → (piece : Text) → Text → List Text
  | _, piece, [] => [piece]
  | 0, piece, '-' :: rest => piece :: cutRanges 2 [] rest
  | 0, piece, c :: rest => cutRanges 0 (piece ++ [c]) rest
  | held + 1, piece, c :: rest => cutRanges held (piece ++ [c]) rest

/-- A hyphen with nothing after it is a member. -/
def keepLastHyphen : List Text → List Text
  | [piece, []] => [piece ++ ['-']]
  | piece :: rest => piece :: keepLastHyphen rest
  | [] => []

/-- Drop the ranges that run backwards with their ends. -/
def dropBackwards : List Text → List Text
  | [] => []
  | piece :: rest =>
    match piece.getLast?, dropBackwards rest with
    | some low, (high :: further) :: more =>
      if high < low then (piece.dropLast ++ further) :: more
      else piece :: (high :: further) :: more
    | _, others => piece :: others

/-- The members of a set and the ranges between the pieces. -/
def rangesOf : List Text → List (Char × Char)
  | [] => []
  | piece :: rest =>
    let members := piece.map fun c => (c, c)
    match piece.getLast?, rest with
    | some low, (high :: _) :: _ => members ++ (low, high) :: rangesOf rest
    | none, _ :: _ => ('-', '-') :: rangesOf rest
    | _, _ => members ++ rangesOf rest

/-- The set that brackets describe. -/
def CharacterSet.ofText (text : Text) : CharacterSet :=
  let held := if text.head? = some '!' then 2 else 1
  match dropBackwards (keepLastHyphen (cutRanges held [] text)) with
  | ('!' :: piece) :: rest => { negated := true, ranges := rangesOf (piece :: rest) }
  | pieces => { negated := false, ranges := rangesOf pieces }

/-! ## Parts -/

/-- The glyphs of a part, after `skip` more characters of a set. -/
def glyphsFrom : (skip : Nat) → Text → List Glyph
  | _, [] => []
  | skip + 1, _ :: rest => glyphsFrom skip rest
  | 0, '*' :: rest => .anyRun :: glyphsFrom 0 rest
  | 0, '?' :: rest => .anyCharacter :: glyphsFrom 0 rest
  | 0, '[' :: rest =>
    match bracketed? rest with
    | some inside => .oneOf (.ofText inside) :: glyphsFrom (inside.length + 1) rest
    | none => .literal '[' :: glyphsFrom 0 rest
  | 0, c :: rest => .literal c :: glyphsFrom 0 rest

/-- True when a glyph describes a single character. -/
def Glyph.accepts (c : Char) : Glyph → Bool
  | literal d => c == d
  | anyCharacter => true
  | anyRun => false
  | oneOf set => set.contains c

/-- Answers for the tails of a name, each of which holds for a tail when it held for the tail
    without its first character, and the glyph describes that character. -/
def afterGlyph (glyph : Glyph) : Text → (answers : List Bool) → List Bool
  | c :: name, _ :: answers =>
    (glyph.accepts c && answers.headD false) :: afterGlyph glyph name answers
  | _, _ => [false]

/-- Answers for the tails of a name, each of which holds for a tail when it held for that tail or
    one behind it. -/
def afterRun : (answers : List Bool) → List Bool
  | [] => []
  | answer :: rest =>
    let behind := afterRun rest
    (answer || behind.headD false) :: behind

/-- For a name and each of its tails, the empty one last, whether glyphs describe it from its
    first to its last character. -/
def describesTails : List Glyph → Text → List Bool
  | [], name => name.map (fun _ => false) ++ [true]
  | .anyRun :: rest, name => afterRun (describesTails rest name)
  | glyph :: rest, name => afterGlyph glyph name (describesTails rest name)

/-- True when glyphs describe a name from its first to its last character. -/
def describes (glyphs : List Glyph) (name : Text) : Bool :=
  (describesTails glyphs name).headD false

/-- What a part of a pattern selects. -/
inductive Step where
  /-- What stands at a name. -/
  | name (part : Text)
  /-- What stands at the names that glyphs describe. -/
  | matching (glyphs : List Glyph)
  /-- The folder itself and all folders below it. -/
  | anyDepth
deriving DecidableEq, Repr

/-- Why there is no pattern. -/
inductive Fault where
  /-- There is not even an empty text. -/
  | missing
  | empty
  | absolute
  /-- Only dots and slashes; true when a slash comes last. -/
  | noParts (slashLast : Bool)
  /-- Two stars together with something else. -/
  | doubleStar
deriving DecidableEq, Repr

/-- The wording of a fault. -/
def Fault.wording : Fault → Text
  | missing => "Unacceptable pattern: []".toList
  | empty => "Unacceptable pattern: \x27\x27".toList
  | absolute => "Non-relative patterns are unsupported".toList
  | noParts _ => "Pattern without parts".toList
  | doubleStar => "Invalid pattern: \x27**\x27 can only be an entire path component".toList

/-- Two stars. -/
def doubleStar : Text := ['*', '*']

/-- True for a part that is not just a name. -/
def isWild (part : Text) : Bool := part.any fun c => c == '*' || c == '?' || c == '['

/-- Read a part. -/
def Step.ofText? (part : Text) : Except Fault Step :=
  if part = doubleStar then .ok .anyDepth
  else if Text.occursIn doubleStar part then .error .doubleStar
  else if isWild part then .ok (.matching (glyphsFrom 0 part))
  else .ok (.name part)

end Pattern

/-- The steps of a pattern; one that ends in a slash selects no files. -/
structure Pattern where
  steps : List Pattern.Step
  foldersOnly : Bool
deriving DecidableEq, Repr

namespace Pattern

/-- Read a pattern. -/
def ofText? (text : Text) : Except Fault Pattern :=
  let path := Path.ofText text
  let foldersOnly := text.getLast? = some '/'
  if text.isEmpty then .error .empty
  else if path.isAbsolute then .error .absolute
  else if path.parts.isEmpty then .error (.noParts foldersOnly)
  else return { steps := ← path.parts.mapM Step.ofText?, foldersOnly }

/-- The paths that a step leads to from a path. -/
def Step.next (tree : FileTree) (path : Path) : Step → Except FileTree.Fault (List Path)
  | name part => do
    let named := path.child part
    return if (← tree.look named).isSome then [named] else []
  | matching glyphs =>
    return ((tree.children path).filter fun (present, _) => describes glyphs present).map Prod.snd
  | anyDepth => return tree.foldersFrom path

/-- The paths that steps lead to from several paths. A path that is reached in more than one way
    is followed once. -/
def reach (tree : FileTree) : List Step → List Path → Except FileTree.Fault (List Path)
  | [], paths => return paths
  | step :: rest, paths => do
    reach tree rest (← paths.mapM fun path => step.next tree path).flatten.eraseDups

/-- The files below a folder that a pattern selects, each once and in order. -/
def files (pattern : Pattern) (tree : FileTree) (folder : Path) :
    Except FileTree.Fault (List Path) := do
  let reached ← reach tree pattern.steps [folder]
  if pattern.foldersOnly then return []
  else return (← reached.filterM tree.isFile).mergeSort Path.comesBefore

end Pattern

end HiddenContent
