import HiddenContent.FileTree.Path
import HiddenContent.Text.Quoted
import HiddenContent.Text.Utf8

/-!
# File trees

A file tree says what stands at each place: a folder, or a file with its bytes. A place is
reached from the root by the names on the way. A path is walked from the root or from the
working folder; only a folder can be walked through, and two dots lead to the folder above,
which for the root is the root. The bytes of a name and those of a path are limited, and no path
holds a zero character.

Making a folder makes the folders on the way that are missing. Nearly every refusal names the
path that was tried.
-/

namespace HiddenContent

/-- What stands at a place. -/
inductive Entry where
  | folder
  | file (bytes : Bytes)
deriving DecidableEq, Repr

/-- The names from the root to a place. -/
abbrev Place := List Text

/-- The entries below the root, each with its place, and the working folder. -/
structure FileTree where
  entries : List (Place × Entry) := []
  workingFolder : Place := []
deriving DecidableEq, Repr

namespace FileTree

/-- Why a folder or a file is not made. -/
inductive Obstacle where
  /-- A folder on the way is missing. -/
  | missing
  /-- Something else stands there. -/
  | occupied
  /-- A file stands on the way. -/
  | notFolder
  /-- A folder stands where the file should be. -/
  | isFolder
  /-- A name on the way, or the whole path, has too many bytes. -/
  | tooLong
  /-- The path holds a zero character. -/
  | zeroCharacter
deriving DecidableEq, Repr

/-- An obstacle and the path that met it. -/
structure Fault where
  obstacle : Obstacle
  path : Path
deriving DecidableEq, Repr

/-- The wording of an obstacle, most of which have a number. -/
def Obstacle.wording : Obstacle → Text
  | missing => "[Errno 2] No such file or directory".toList
  | occupied => "[Errno 17] File exists".toList
  | notFolder => "[Errno 20] Not a directory".toList
  | isFolder => "[Errno 21] Is a directory".toList
  | tooLong => "[Errno 36] File name too long".toList
  | zeroCharacter => "embedded null byte".toList

/-- The wording of a fault. A path with a zero character is not shown. -/
def Fault.wording (fault : Fault) : Text :=
  match fault.obstacle with
  | .zeroCharacter => Obstacle.zeroCharacter.wording
  | obstacle => obstacle.wording ++ ": ".toList ++ fault.path.toText.quoted

/-- What stands at a place; the root is a folder. -/
def get? (tree : FileTree) : Place → Option Entry
  | [] => some .folder
  | place => tree.entries.lookup place

/-- Put an entry at a place. -/
def put (tree : FileTree) (place : Place) (entry : Entry) : FileTree :=
  { tree with entries := (place, entry) :: tree.entries.filter (·.1 != place) }

/-- Where a walk ends. -/
inductive Arrival where
  /-- At an entry. -/
  | found (place : Place) (entry : Entry)
  /-- At a place in a folder where nothing stands. -/
  | vacant (place : Place)
  /-- Before the end, at an obstacle. -/
  | stopped (obstacle : Obstacle)
deriving DecidableEq, Repr

/-- The most bytes that a name may have. -/
def mostNameBytes : Nat := 255

/-- The most bytes that a path may have. -/
def mostPathBytes : Nat := 4095

/-- Walk on from an entry. -/
def walkFrom (tree : FileTree) : Place → Entry → List Text → Arrival
  | place, entry, [] => .found place entry
  | _, .file _, _ :: _ => .stopped .notFolder
  | place, .folder, part :: rest =>
    let next := if part = Path.above then place.dropLast else place ++ [part]
    if mostNameBytes < part.encode.length then .stopped .tooLong
    else
      match tree.get? next with
      | some entry => walkFrom tree next entry rest
      | none => if rest.isEmpty then .vacant next else .stopped .missing

/-- Walk a path. -/
def walk (tree : FileTree) (path : Path) : Arrival :=
  let spelled := path.toText
  if spelled.contains '\x00' then .stopped .zeroCharacter
  else if mostPathBytes < spelled.encode.length then .stopped .tooLong
  else walkFrom tree (if path.isAbsolute then [] else tree.workingFolder) .folder path.parts

/-- What stands at the path, when anything does. Only of a path that is too long this is not
    known. -/
def look (tree : FileTree) (path : Path) : Except Fault (Option Entry) :=
  match tree.walk path with
  | .found _ entry => .ok (some entry)
  | .stopped .tooLong => .error ⟨.tooLong, path⟩
  | _ => .ok none

/-- True when a folder stands at the path. -/
def isFolder (tree : FileTree) (path : Path) : Except Fault Bool := do
  match ← tree.look path with
  | some .folder => return true
  | _ => return false

/-- True when a file stands at the path. -/
def isFile (tree : FileTree) (path : Path) : Except Fault Bool := do
  match ← tree.look path with
  | some (.file _) => return true
  | _ => return false

/-- The bytes of the file at the path. -/
def readFile (tree : FileTree) (path : Path) : Except Fault Bytes :=
  match tree.walk path with
  | .found _ (.file bytes) => .ok bytes
  | .found _ .folder => .error ⟨.isFolder, path⟩
  | .vacant _ => .error ⟨.missing, path⟩
  | .stopped obstacle => .error ⟨obstacle, path⟩

/-- The names in the folder at a place. -/
def names (tree : FileTree) (place : Place) : List Text :=
  tree.entries.filterMap fun (present, _) =>
    match present.getLast? with
    | some name => if present.dropLast = place then some name else none
    | none => none

/-- The paths in the folder at a path. -/
def children (tree : FileTree) (path : Path) : List (Text × Path) :=
  match tree.walk path with
  | .found place .folder => (tree.names place).map fun name => (name, path.child name)
  | _ => []

/-- The folder at a path and all folders below it. -/
def foldersFrom (tree : FileTree) (path : Path) : List Path :=
  match tree.walk path with
  | .found place .folder =>
    path :: tree.entries.filterMap fun (present, entry) =>
      if entry = .folder ∧ place.isPrefixOf present ∧ place ≠ present then
        some { path with parts := path.parts ++ present.drop place.length }
      else none
  | _ => []

/-- What becomes of a folder that is to be made and is there. -/
inductive Present where
  | stays
  | refused
deriving DecidableEq, Repr

/-- Make the folder at a path in the folder before it. -/
def makeLast (tree : FileTree) (present : Present) (path : Path) : Except Fault FileTree :=
  match tree.walk path with
  | .vacant place => .ok (tree.put place .folder)
  | .found _ .folder =>
    match present with
    | .stays => .ok tree
    | .refused => .error ⟨.occupied, path⟩
  | .found _ (.file _) => .error ⟨.occupied, path⟩
  | .stopped obstacle => .error ⟨obstacle, path⟩

/-- Make the folder whose parts are given from the last to the first, and those on the way that
    are missing. -/
def makeReversed (tree : FileTree) (root : Text) :
    (present : Present) → List Text → Except Fault FileTree
  | .stays, [] => .ok tree
  | .refused, [] => tree.makeLast .refused { root, parts := [] }
  | present, last :: before =>
    let path : Path := { root, parts := (last :: before).reverse }
    match tree.walk path with
    | .stopped .missing => do makeLast (← makeReversed tree root .stays before) present path
    | _ => tree.makeLast present path

/-- Make the folder at a path, and those on the way that are missing. One that is there stays. -/
def makeFolder (tree : FileTree) (path : Path) : Except Fault FileTree :=
  tree.makeReversed path.root .stays path.parts.reverse

/-- Make the folder at a path, which must not be there, and those on the way that are missing. It
    is there when the path leads back from a folder that was missing. -/
def makeNewFolder (tree : FileTree) (path : Path) : Except Fault FileTree :=
  tree.makeReversed path.root .refused path.parts.reverse

/-- Write the file at a path, in place of the one that may be there. -/
def writeFile (tree : FileTree) (path : Path) (bytes : Bytes) : Except Fault FileTree :=
  match tree.walk path with
  | .vacant place | .found place (.file _) => .ok (tree.put place (.file bytes))
  | .found _ .folder => .error ⟨.isFolder, path⟩
  | .stopped obstacle => .error ⟨obstacle, path⟩

/-- The entries of a tree that an earlier one does not have. -/
def changesSince (tree earlier : FileTree) : List (Place × Entry) :=
  tree.entries.filter fun (place, entry) => earlier.get? place != some entry

end FileTree

end HiddenContent
