import HiddenContent.Settings
import HiddenContent.Tokens

/-!
# Search in stored text

A search must match visible text only. The tokens of the configured action are removed
before a keyword is tried, otherwise every note that hides something would match the words of
its token. A predicate is a query of a larger language, of which only the clauses
`content.contains("word")` are read here; all their keywords must occur.
-/

namespace HiddenContent

namespace Search

/-- What a clause begins with. -/
def clauseHead : Text := "content.contains(".toList ++ ['\x22']

/-- What a clause ends with. -/
def clauseTail : Text := ['\x22', ')']

/-- The keyword of the clause in front of a text. It is not empty and ends at the next
    double quote. -/
def clause? (text : Text) : Option Text :=
  match Text.after? clauseHead text with
  | none => none
  | some rest =>
    let keyword := rest.takeWhile (· != '\x22')
    if keyword.isEmpty || (Text.after? clauseTail (rest.drop keyword.length)).isNone then none
    else some keyword

/-- The keywords of the clauses of a text from left to right, after `skip` more characters of
    the last clause. -/
def keywordsFrom : (skip : Nat) → Text → List Text
  | _, [] => []
  | skip + 1, _ :: rest => keywordsFrom skip rest
  | 0, c :: rest =>
    match clause? (c :: rest) with
    | some keyword =>
      keyword :: keywordsFrom (clauseHead.length + keyword.length + clauseTail.length - 1) rest
    | none => keywordsFrom 0 rest

/-- The keywords of several predicates in order of appearance. -/
def keywords (predicates : List Text) : List Text := predicates.flatMap (keywordsFrom 0)

/-- Remove the tokens of the configured action and nothing else. -/
def strip (settings : Settings) (content : Text) : Text :=
  Span.splice content (fun _ => []) 0
    ((Tokens.placeholders content).filter fun span => settings.acts span.action)

/-- The keywords that do not occur in the visible text. -/
def missing (settings : Settings) (content : Text) (predicates : List Text) : List Text :=
  let visible := strip settings content
  (keywords predicates).filter fun keyword => !Text.occursIn keyword visible

/-- True when every keyword occurs in the visible text. -/
def isMatch (settings : Settings) (content : Text) (predicates : List Text) : Bool :=
  (missing settings content predicates).isEmpty

end Search

end HiddenContent
