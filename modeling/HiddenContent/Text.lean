/-!
# Texts and their elementary cuts

A text is a finite sequence of characters, and every position counts characters.
This module says what a blank character is, trims blanks at the ends, finds the first
occurrence of a separator, and cuts a text into pieces or lines. An empty separator
occurs at every position; callers that forbid it say so themselves.

Trimming only removes blanks at an end. Cutting loses nothing but the separators, so the
lines of a text joined by line feeds are the text again.
-/

namespace HiddenContent

/-- A text is its sequence of characters. -/
abbrev Text := List Char

namespace Text

/-- The blank characters: the line and paragraph ends, tabulators, the four information
    separators and the spaces of Unicode, the zero-width ones excepted. -/
def isBlank (c : Char) : Bool :=
  let code := c.toNat
  (0x09 ≤ code && code ≤ 0x0d) || (0x1c ≤ code && code ≤ 0x20) || code == 0x85 ||
    code == 0xa0 || code == 0x1680 || (0x2000 ≤ code && code ≤ 0x200a) ||
    code == 0x2028 || code == 0x2029 || code == 0x202f || code == 0x205f || code == 0x3000

/-- A space or a horizontal tabulator. -/
def isSpacing (c : Char) : Bool := c == ' ' || c == '\t'

/-- Remove the blanks at the end. -/
def stripEnd (text : Text) : Text := (text.reverse.dropWhile isBlank).reverse

/-- Remove the blanks at both ends. -/
def strip (text : Text) : Text := stripEnd (text.dropWhile isBlank)

/-- The characters at the positions from `start` on and before `stop`. -/
def slice (text : Text) (start stop : Nat) : Text := (text.drop start).take (stop - start)

/-- What follows the given beginning, when the text starts with it. -/
def after? (beginning text : Text) : Option Text :=
  if beginning.isPrefixOf text then some (text.drop beginning.length) else none

/-- What stands before and after the first occurrence of the separator. -/
def cut? (separator : Text) : Text → Option (Text × Text)
  | [] => if separator.isEmpty then some ([], []) else none
  | c :: rest =>
    if separator.isPrefixOf (c :: rest) then
      some ([], (c :: rest).drop separator.length)
    else
      (cut? separator rest).map fun (before, after) => (c :: before, after)

/-- The pieces between the separators that stand left to right without overlap, after
    `skip` more characters of the last separator. -/
def piecesFrom (separator : Text) : Nat → Text → List Text
  | _, [] => [[]]
  | skip + 1, _ :: rest => piecesFrom separator skip rest
  | 0, c :: rest =>
    if separator.isPrefixOf (c :: rest) then
      [] :: piecesFrom separator (separator.length - 1) rest
    else
      (piecesFrom separator 0 rest).modifyHead (c :: ·)

/-- The pieces of a text between the occurrences of a separator, one more than there are
    separators. -/
def pieces (separator text : Text) : List Text := piecesFrom separator 0 text

/-- The lines of a text, which only a line feed ends; the empty text has one empty line. -/
def lines (text : Text) : List Text := text.splitOn '\n'

/-- The lines joined by line feeds. -/
def ofLines (lines : List Text) : Text := ['\n'].intercalate lines

/-- The number of characters of lines, each with its line feed. -/
def linesSize : List Text → Nat
  | [] => 0
  | line :: rest => line.length + 1 + linesSize rest

/-- Every line end as a line feed: a carriage return is one, alone or with the line feed after
    it. -/
def withLineFeeds : Text → Text
  | [] => []
  | '\r' :: '\n' :: rest => '\n' :: withLineFeeds rest
  | '\r' :: rest => '\n' :: withLineFeeds rest
  | c :: rest => c :: withLineFeeds rest

/-- The part of a text after its last line feed, and the part before that line feed when
    there is one. -/
def lastLine (text : Text) : Option Text × Text :=
  let backwards := text.reverse
  let last := (backwards.takeWhile (· != '\n')).reverse
  match backwards.dropWhile (· != '\n') with
  | [] => (none, last)
  | _ :: before => (some before.reverse, last)

/-- True when the part stands somewhere in the text. -/
def occursIn (part : Text) : Text → Bool
  | [] => part.isEmpty
  | c :: rest => part.isPrefixOf (c :: rest) || occursIn part rest

/-- A number in decimal digits. -/
def decimal (number : Nat) : Text := Nat.toDigits 10 number

/-- A lone character separates exactly where it stands. -/
theorem pieces_singleton (c : Char) (text : Text) : pieces [c] text = text.splitOn c := by
  unfold pieces
  induction text with
  | nil => rfl
  | cons d rest inductionHypothesis =>
    rw [List.splitOn_cons_eq_if_modifyHead, ← inductionHypothesis]
    simp only [piecesFrom, List.isPrefixOf, Bool.and_true, List.length_singleton]
    by_cases same : c = d
    · simp [same]
    · simp [same, Ne.symm same]

/-- The lines of a text joined again are the text. -/
theorem ofLines_lines (text : Text) : ofLines text.lines = text :=
  List.intercalate_splitOn '\n'

/-- No lines have no size. -/
@[simp] theorem linesSize_nil : linesSize [] = 0 := rfl

/-- A line counts its characters and its line feed. -/
@[simp] theorem linesSize_cons (line : Text) (rest : List Text) :
    linesSize (line :: rest) = line.length + 1 + linesSize rest := rfl

/-- Joining drops one line feed, or none when there are no lines. -/
theorem length_ofLines (lines : List Text) : (ofLines lines).length = linesSize lines - 1 := by
  induction lines with
  | nil => rfl
  | cons line rest inductionHypothesis =>
    cases rest with
    | nil => simp [ofLines]
    | cons next more =>
      have joined : ofLines (line :: next :: more) =
          line ++ ['\n'] ++ ofLines (next :: more) := by
        simp [ofLines, List.intercalate_cons_cons]
      rw [joined]
      simp only [List.length_append, List.length_singleton, inductionHypothesis, linesSize_cons]
      omega

/-- Every character of a text is in one of its lines or ends one. -/
theorem linesSize_lines (text : Text) : linesSize text.lines = text.length + 1 := by
  have joined := length_ofLines text.lines
  rw [ofLines_lines] at joined
  have inhabited : text.lines ≠ [] := List.splitOn_ne_nil '\n' text
  cases same : text.lines with
  | nil => exact absurd same inhabited
  | cons line rest =>
    rw [same] at joined
    simp only [linesSize_cons] at joined ⊢
    omega

end Text

end HiddenContent
