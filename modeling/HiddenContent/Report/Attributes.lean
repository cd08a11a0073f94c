import HiddenContent.Message
import HiddenContent.Settings
import HiddenContent.Text.Quoted

/-!
# Reports on attributes

What reading and writing attributes has to say: a piece that is neither blank nor a pair is
reported when it is dropped, a pair that cannot be written is reported under its key, and a
blob that is read with an empty separator is reported as a whole, at the lowest level,
because nothing of it was read.
-/

namespace HiddenContent

namespace Attributes

/-- The dropped piece, named without the blanks around it. -/
def malformedPair (piece : Text) : Message :=
  ⟨3, "Dropping malformed attribute pair \x27".toList ++ piece.strip ++ ['\x27']⟩

/-- The dropped pair, named by its key. -/
def reservedCharacter (key : Text) : Message :=
  ⟨2, "Dropping attribute \x27".toList ++ key ++
    "\x27: reserved character in key or value".toList⟩

/-- The blob that could not be read at all. -/
def emptySeparator (blob : Text) : Message :=
  ⟨1, "Error extracting attributes from ".toList ++ blob.quoted ++ ": empty separator".toList⟩

/-- What reading a blob reports. -/
def extractReport (separator keyValueSeparator blob : Text) : List Message :=
  if blob.isEmpty then []
  else if separator.isEmpty || keyValueSeparator.isEmpty then [emptySeparator blob]
  else
    (blobPieces separator blob).filterMap fun piece =>
      if (pair? keyValueSeparator piece).isNone && !piece.strip.isEmpty then
        some (malformedPair piece)
      else
        none

/-- What reading a blob in a dialect reports. -/
def decodeReport (dialect : Dialect) (blob : Text) : List Message :=
  extractReport dialect.separator dialect.keyValueSeparator blob

/-- What dropping the unclean pairs reports. -/
def sanitizeReport (forbidden : Text) (attributes : Attributes) : List Message :=
  attributes.filterMap fun pair =>
    if isClean forbidden pair then none else some (reservedCharacter pair.1)

end Attributes

namespace Settings

/-- What writing a token reports. -/
def tokenReport (settings : Settings) (attributes : Attributes) : List Message :=
  attributes.sanitizeReport settings.forbiddenCharacters

end Settings

end HiddenContent
