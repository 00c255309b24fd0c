import JadeEditor.Text.Basic

/-!
# Why a text is no document

Every cause ends the reading of a document. The first group is about the
notation, the last three are about what the document refers to.
-/

namespace JadeEditor.Yaml

set_option autoImplicit false

inductive Problem where
  | severalDocuments
  | missingMarker
  | badDirective (line : Text)
  | unexpected (found : Text)
  | tabIndentation
  | badIndentation
  | missingSpace
  | missingComma
  | missingColon
  | missingDash
  | missingNewline
  | unclosedFlow
  | blockInFlow
  | unclosedQuote
  | badEscape
  | badStart (found : Text)
  | badBlockHeader
  | repeatedProperty
  | misplacedProperty
  | badTag (name : Text)
  | badName
  | repeatedKey
  | longKey
  | keyOverLines
  | nestedMapping
  | contentAfterComment
  | unknownAlias (name : Text)
  | tooManyAliases
  | badMerge
  deriving DecidableEq

def Problem.message : Problem → Text
  | severalDocuments => utf16 "There is more than one document"
  | missingMarker => utf16 "A directive is not followed by a document marker"
  | badDirective line => utf16 "The directive is not well formed: " ++ line
  | unexpected found => utf16 "Unexpected text: " ++ found
  | tabIndentation => utf16 "Tabs are not allowed as indentation"
  | badIndentation => utf16 "The indentation does not fit"
  | missingSpace => utf16 "A space is missing"
  | missingComma => utf16 "A comma is missing between two items"
  | missingColon => utf16 "A key is not followed by a colon"
  | missingDash => utf16 "An item of a list has no dash"
  | missingNewline => utf16 "A block collection starts behind something else on its line"
  | unclosedFlow => utf16 "A flow collection is not closed"
  | blockInFlow => utf16 "A block collection stands inside a flow collection"
  | unclosedQuote => utf16 "A closing quote is missing"
  | badEscape => utf16 "An escape sequence is not known"
  | badStart found => utf16 "A plain scalar cannot start with " ++ found
  | badBlockHeader => utf16 "The header of a block scalar is not well formed"
  | repeatedProperty => utf16 "A node has two anchors or two tags"
  | misplacedProperty => utf16 "An anchor or tag stands in the wrong place"
  | badTag name => utf16 "The tag cannot be resolved: " ++ name
  | badName => utf16 "An anchor or alias has no name"
  | repeatedKey => utf16 "A key occurs twice"
  | longKey => utf16 "A key is too long"
  | keyOverLines => utf16 "A key goes on over several lines"
  | nestedMapping => utf16 "A mapping cannot start on the line of a key"
  | contentAfterComment => utf16 "A comment is followed by content it does not belong to"
  | unknownAlias name =>
    utf16 "Unresolved alias (the anchor must be set before the alias): " ++ name
  | tooManyAliases => utf16 "Excessive alias count indicates a resource exhaustion attack"
  | badMerge => utf16 "Merge sources must be maps or map aliases"

end JadeEditor.Yaml
