import HiddenContent.Encoding
import HiddenContent.Report.Attributes
import HiddenContent.Search

/-!
# Reports on encoding and search

Encoding reports what it drops from the attributes of each directive that it replaces, and then
the number of inline directives it met, those of other actions included. A block that never
closes is reported by the number of its opener line, counted from one. A search reports the
keywords that do not occur.
-/

namespace HiddenContent

namespace Settings

/-- What reading a blob and taking its label out reports. -/
def labelledReport (_settings : Settings) (dialect : Dialect) (blob : Text) : List Message :=
  Attributes.decodeReport dialect blob

/-- What finding the attributes of a token reports. -/
def canonicalizeReport (settings : Settings) (blob : Text) : List Message :=
  let labelled := settings.labelled .authored blob
  settings.labelledReport .authored blob ++
    labelled.attributes.sanitizeReport settings.forbiddenCharacters ++
    if settings.persistLabel && !labelled.label.isEmpty then
      Attributes.sanitizeReport settings.forbiddenCharacters
        [("placeholder".toList, labelled.label)]
    else
      []

/-- What writing the token of a directive reports. -/
def encodeBlobReport (settings : Settings) (blob : Text) : List Message :=
  settings.canonicalizeReport blob ++ settings.tokenReport (settings.canonicalize blob)

/-- What replacing the inline directives reports. -/
def encodeInlineReport (settings : Settings) (text : Text) : List Message :=
  let spans := Tokens.ofText text true
  let directives := spans.filter fun span => !span.isPlaceholder
  (spans.filter settings.hides).flatMap (fun span => settings.encodeBlobReport span.blob) ++
    if directives.isEmpty then []
    else
      [⟨3, "Encoded ".toList ++ Text.decimal directives.length ++
        " inline directive(s)".toList⟩]

/-- The number of lines that a region and the lines before it take. -/
def regionLines (region : Region) : Nat := region.before.length + region.interior.length + 2

/-- What replacing the blocks reports. -/
def encodeBlocksReport (settings : Settings) (text : Text) : List Message :=
  let layout := Layout.ofLines settings.directiveAction text.lines
  layout.regions.flatMap (fun region => settings.encodeBlobReport region.opener.blob) ++
    match BlockStart.find? settings.directiveAction layout.rest with
    | none => []
    | some start =>
      let line := layout.regions.foldl (fun count region => count + regionLines region) 0 +
        start.before.length + 1
      [⟨2, "Unterminated block directive at line ".toList ++ Text.decimal line ++
        ", left as text".toList⟩]

/-- What encoding a note reports. -/
def encodeReport (settings : Settings) (text : Text) : List Message :=
  settings.encodeBlocksReport text ++ settings.encodeInlineReport (settings.encodeBlocks text)

end Settings

namespace Search

/-- What a search reports. -/
def matchReport (settings : Settings) (content : Text) (predicates : List Text) :
    List Message :=
  let absent := missing settings content predicates
  if absent.isEmpty then []
  else [⟨3, "Search keywords not in visible content: ".toList ++ Text.quotedList absent⟩]

end Search

end HiddenContent
