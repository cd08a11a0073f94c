import HiddenContent.Text

/-!
# Paths

A path is a sequence of parts, read from the root of the file tree when it begins with a slash
and from the working folder otherwise. Empty parts and single dots say nothing and are dropped.
Two dots stay a part: they are resolved by walking, not by the spelling.
-/

namespace HiddenContent

/-- The slashes that a path begins with, and the parts between the later ones. -/
structure Path where
  root : Text := []
  parts : List Text
deriving DecidableEq, Repr

namespace Path

/-- True for a part that says nothing. -/
def isVoid (part : Text) : Bool := part.isEmpty || part == ['.']

/-- The part that leads to the folder above. -/
def above : Text := ['.', '.']

/-- The slashes at the beginning that count: two are kept, more are as good as one. -/
def rootOf (text : Text) : Text :=
  match text.takeWhile (· == '/') with
  | [] => []
  | [_, _] => ['/', '/']
  | _ => ['/']

/-- Read a path. -/
def ofText (text : Text) : Path :=
  { root := rootOf text, parts := (text.splitOn '/').filter fun part => !isVoid part }

/-- The spelling of a path; the working folder is a dot. -/
def toText (path : Path) : Text :=
  if path.root.isEmpty && path.parts.isEmpty then ['.']
  else path.root ++ ['/'].intercalate path.parts

/-- True for a path that begins at the root. -/
def isAbsolute (path : Path) : Bool := !path.root.isEmpty

/-- The path to a part below. -/
def child (path : Path) (part : Text) : Path := { path with parts := path.parts ++ [part] }

/-- The path without its last part, when it has one. -/
def parent (path : Path) : Path := { path with parts := path.parts.dropLast }

/-- A path read from the folder at another path; one from the root stays as it is. -/
def append (path further : Path) : Path :=
  if further.isAbsolute then further else { path with parts := path.parts ++ further.parts }

instance : Append Path := ⟨append⟩

/-- What leads to a path from one of the folders on its way. -/
def relativeTo (path folder : Path) : Path := { parts := path.parts.drop folder.parts.length }

/-- A name up to its last dot, unless that is its first or last character. -/
def stemOf (name : Text) : Text :=
  let backwards := name.reverse
  let suffix := backwards.takeWhile (· != '.')
  match backwards.dropWhile (· != '.') with
  | [] => name
  | _ :: before => if suffix.isEmpty || before.isEmpty then name else before.reverse

/-- A path with its last name up to the suffix; a path without parts has no name. -/
def withoutSuffix? (path : Path) : Option Path :=
  path.parts.getLast?.map fun name => path.parent.child (stemOf name)

/-- Paths stand in the order of their parts. -/
def comesBefore (first second : Path) : Bool := !decide (second.parts < first.parts)

end Path

end HiddenContent
