/-
  FieldRemap.Tokenize — field names replaced by their tokens.

  Every reference to the name of an entry that has a token is turned into the token, in the
  form it is written in. In remap mode names derived from it follow: `Sales__highlight`
  becomes `__0____highlight`.
-/

import FieldRemap.Edit
import FieldRemap.Track

namespace FieldRemap

structure TokenizationRequest where
  specText : String
  trackedFields : Registry
  supplementaryReplacers : List Convention := Convention.defaults
  /-- Also retarget names derived from a tracked field. -/
  isRemap : Bool := false
  deriving DecidableEq

abbrev Retarget := Reference × String

namespace Retarget

/-- The finds for `name`, to be turned into `target`, and in the same way for each suffix. -/
def candidates (quotes : QuoteMap) (text : List Char) (suffixes : List String)
    (name target : String) : List (Candidate Retarget) :=
  Track.candidatesFor quotes text name Track.literalPriority (·, target) ++
    suffixes.flatMap fun suffix =>
      Track.candidatesFor quotes text (name ++ suffix) Track.derivedPriority (·, target ++ suffix)

def edits (candidates : List (Candidate Retarget)) : List (Span × List Char) :=
  (Candidate.arbitrate candidates).map
    (fun candidate => candidate.value.1.redirect candidate.value.2.toList)

end Retarget

namespace Tokenize

def edits (request : TokenizationRequest) : List (Span × List Char) :=
  let text := request.specText.toList
  let quotes := QuoteMap.lex text
  let suffixes :=
    if request.isRemap then request.supplementaryReplacers.filterMap (·.suffix?) else []
  Retarget.edits (request.trackedFields.byPlaceholder.flatMap
    (fun (token, entry) => Retarget.candidates quotes text suffixes entry.name token.text))

end Tokenize

def tokenize (request : TokenizationRequest) : String :=
  String.ofList (splice request.specText.toList (Tokenize.edits request))

/-- The tokens, in order, that a text does not refer to. -/
def missingTokens (text : String) (trackedFields : Registry) : List Placeholder :=
  let quotes := QuoteMap.lex text.toList
  (trackedFields.byPlaceholder.map (·.1)).filter
    (fun token => (findReferences token.chars quotes text.toList).isEmpty)

end FieldRemap
