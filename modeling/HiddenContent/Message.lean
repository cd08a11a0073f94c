import HiddenContent.Text

/-!
# Diagnostic messages

A message has a level, and a reader with a given verbosity sees the messages whose level it
reaches. The library never decides what is shown: each operation that has something to say
has a report beside it, which lists the messages in the order in which they arise and
leaves the operation itself free of them.
-/

namespace HiddenContent

/-- One diagnostic: the least verbosity that shows it, and its wording. -/
structure Message where
  level : Nat
  wording : Text
deriving DecidableEq, Repr

namespace Message

/-- The name that a level is shown under. -/
def levelName (message : Message) : String :=
  match message.level with
  | 1 => "INFO"
  | 2 => "DEBUG"
  | _ => "TRACE"

/-- True when a reader of this verbosity sees the message. -/
def shownAt (verbosity : Int) (message : Message) : Bool := message.level ≤ verbosity

end Message

end HiddenContent
