import HiddenContent.Region
import HiddenContent.Tokens

/-!
# Encoding: the form that is stored

Encoding replaces every directive of the configured action by a token without its hidden
content. Blocks go first, so that no hidden line is read as an inline payload, and inline
directives follow. A token keeps the attributes that can be written, and the label only when the
settings persist it. Tokens that are already there and directives of other actions stay as they
are. An opener that is never closed leaves itself and everything after it as text.
-/

namespace HiddenContent

namespace Settings

/-- The attributes that a token carries for the blob an author wrote. -/
def canonicalize (settings : Settings) (blob : Text) : Attributes :=
  let labelled := settings.labelled .authored blob
  let clean := labelled.attributes.sanitize settings.forbiddenCharacters
  if settings.persistLabel && !labelled.label.isEmpty then
    clean.update
      (Attributes.sanitize settings.forbiddenCharacters
        [("placeholder".toList, labelled.label)])
  else
    clean

/-- True for a directive, not a token, of the configured action. -/
def hides (settings : Settings) (span : Span) : Bool :=
  !span.isPlaceholder && settings.acts span.action

/-- What the stored text holds in place of a span. -/
def encodeSpan (settings : Settings) (text : Text) (span : Span) : Text :=
  if settings.hides span then settings.token span.mode (settings.canonicalize span.blob)
  else text.slice span.start span.stop

/-- Replace every inline directive by a token. -/
def encodeInline (settings : Settings) (text : Text) : Text :=
  Span.splice text (settings.encodeSpan text) 0 (Tokens.ofText text true)

/-- The token line of a closed region. -/
def encodeRegion (settings : Settings) (region : Region) : Text :=
  settings.token .block (settings.canonicalize region.opener.blob)

/-- Replace every closed region by its token line. -/
def encodeLines (settings : Settings) (lines : List Text) : List Text :=
  let layout := Layout.ofLines settings.directiveAction lines
  layout.regions.flatMap (fun region => region.before ++ [settings.encodeRegion region]) ++
    layout.rest

/-- Replace every closed block of a text by a token line. -/
def encodeBlocks (settings : Settings) (text : Text) : Text :=
  Text.ofLines (settings.encodeLines text.lines)

/-- The form of a note that is stored. -/
def encode (settings : Settings) (text : Text) : Text :=
  settings.encodeInline (settings.encodeBlocks text)

end Settings

end HiddenContent
