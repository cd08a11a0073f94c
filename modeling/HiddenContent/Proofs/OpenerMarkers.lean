import HiddenContent.Proofs.LineUnits

/-!
# The marker of an opener unit

An opener unit may hold more than its opener. The scan remembers the opener line alone, in a unit
of the same kind: a text, or a paragraph around one. That marker is an opener unit again, with
the same opener, with nothing before it, and with itself as its marker. It is a single line, so no
block stands in it.
-/

namespace HiddenContent

namespace Text

/-- The last line of a text has no line feed, and the text ends with it. -/
theorem exists_of_lastLine (text : Text) :
    '\n' ∉ text.lastLine.2 ∧ ∃ before, text = before ++ text.lastLine.2 := by
  have last : text.lastLine.2 = (text.reverse.takeWhile (· != '\n')).reverse := by
    rw [lastLine]
    split <;> rfl
  rw [last]
  constructor
  · intro present
    have other := List.mem_takeWhile_imp (List.mem_reverse.mp present)
    simp at other
  · refine ⟨(text.reverse.dropWhile (· != '\n')).reverse, ?_⟩
    rw [← List.reverse_append, List.takeWhile_append_dropWhile, List.reverse_reverse]

/-- The last line of a text that ends without a blank has none at its end. -/
theorem stripEnd_lastLine (text : Text) :
    text.stripEnd.lastLine.2.stripEnd = text.stripEnd.lastLine.2 := by
  obtain ⟨_, before, whole⟩ := exists_of_lastLine text.stripEnd
  obtain ⟨_, _, _, ends⟩ := exists_stripEnd text
  by_cases empty : text.stripEnd.lastLine.2 = []
  · rw [empty]
    rfl
  · rw [whole, endsUnblank_append _ _ empty] at ends
    simpa using stripEnd_append text.stripEnd.lastLine.2 [] isBlankRun_nil ends

end Text

namespace BlockScan

/-- An opener line as the scan remembers it. -/
structure IsMarkerLine (opener : BlockOpener) (line : Text) : Prop where
  single : '\n' ∉ line
  inhabited : line ≠ []
  read : openerOfValue? line = some (opener, line, [])

/-- The line that is read as an opener at the end of a value is read as the same opener alone. -/
theorem isMarkerLine_of_value {value line head : Text} {opener : BlockOpener}
    (found : openerOfValue? value = some (opener, line, head)) : IsMarkerLine opener line := by
  obtain ⟨_, read, same⟩ := Option.map_eq_some_iff.mp found
  simp only [Prod.mk.injEq] at same
  obtain ⟨rfl, rfl, _⟩ := same
  have single := (Text.exists_of_lastLine value.stripEnd).1
  refine ⟨single, ?_, ?_⟩
  · intro empty
    have unread : BlockOpener.ofLine? [] = none := by decide
    rw [empty, unread] at read
    exact absurd read (by simp)
  · rw [openerOfValue?, Text.stripEnd_lastLine, Text.lastLine_eq _ single]
    simp [read]

/-- A unit that holds an opener line and nothing else. -/
inductive IsMarker (opener : BlockOpener) : Node → Prop where
  | text {line : Text} (marks : IsMarkerLine opener line) : IsMarker opener (Node.ofText line)
  | paragraph {line : Text} (marks : IsMarkerLine opener line) :
      IsMarker opener (Node.paragraph [Node.ofText line])

/-- The marker of an opener unit holds its opener line alone. -/
theorem isMarker_of_openerUnit {unit : Node} {found : OpenerUnit}
    (opened : openerUnit? unit = some found) : IsMarker found.opener found.marker := by
  unfold openerUnit? at opened
  split at opened
  · obtain ⟨⟨opener, line, head⟩, read, rfl⟩ := Option.map_eq_some_iff.mp opened
    exact .text (isMarkerLine_of_value read)
  · split at opened
    · obtain ⟨last, _, mapped⟩ := Option.bind_eq_some_iff.mp opened
      obtain ⟨⟨opener, line, head⟩, read, rfl⟩ := Option.map_eq_some_iff.mp mapped
      exact .paragraph (isMarkerLine_of_value read)
    · simp at opened

/-- A marker is an opener unit with nothing before its opener, and its own marker. -/
theorem IsMarker.openerUnit {opener : BlockOpener} {node : Node} (marker : IsMarker opener node) :
    openerUnit? node = some ⟨opener, none, node⟩ := by
  cases marker with
  | @text line marks =>
    have isText : (Node.ofText line).isText = true := rfl
    rw [openerUnit?, if_pos isText]
    change (openerOfValue? line).map _ = _
    rw [marks.read]
    rfl
  | @paragraph line marks =>
    rw [openerUnit?_paragraph, marks.read]
    rfl

end BlockScan

end HiddenContent
