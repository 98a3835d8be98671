/-!
# What is wrong with an XML text

The reasons for which an XML text is refused, and their wording.
-/

namespace FastSchema.Xml

/-- Why a text is not accepted as XML. A document type declaration never is. -/
inductive Malformed where
  | unexpectedEnd
  | expected (what : String)
  | badName
  | forbiddenChar (c : Char)
  | badComment
  | sectionEndInText
  | doctype
  | misplacedDeclaration
  | badReference
  | unboundQualifier (qualifier : String)
  | duplicateAttribute (base : String)
  | duplicateQualifier (qualifier : String)
  | reservedNamespace
  | mismatchedEnd
  | strayContent
  | noRoot
  | unclosedRoot
deriving DecidableEq, Repr, Inhabited

def Malformed.message : Malformed → String
  | .unexpectedEnd => "unexpected end of the text"
  | .expected what => "expected " ++ what
  | .badName => "invalid name"
  | .forbiddenChar c => "the character with code point " ++ toString c.toNat ++ " is not allowed"
  | .badComment => "two hyphens inside a comment"
  | .sectionEndInText => "']]>' is not allowed inside a text"
  | .doctype => "a document type declaration is not accepted"
  | .misplacedDeclaration => "an XML declaration must begin the text"
  | .badReference => "malformed or unknown reference"
  | .unboundQualifier q => "an unknown namespace qualifier '" ++ q ++ "'"
  | .duplicateAttribute base => "the attribute '" ++ base ++ "' is already defined"
  | .duplicateQualifier q => "the namespace qualifier '" ++ q ++ "' is already defined"
  | .reservedNamespace => "a reserved namespace or qualifier is misused"
  | .mismatchedEnd => "an end tag does not match the open element"
  | .strayContent => "unexpected content outside the root element"
  | .noRoot => "the document has no root element"
  | .unclosedRoot => "the root element is not closed"

end FastSchema.Xml
