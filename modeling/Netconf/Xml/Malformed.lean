/-! Why a document is no well-formed XML. -/
namespace Netconf.Xml

/-- The causes for which a document is refused. -/
inductive Malformed where
  /-- The bytes are not text in the document's encoding. -/
  | undecodable
  /-- The declaration names an encoding that is not known. -/
  | unknownEncoding (label : String)
  /-- The declaration names another encoding than the byte order mark. -/
  | conflictingEncoding (label : String)
  | badDeclaration
  | unexpectedEnd
  | unexpected (what : String)
  | badName
  | nameTooLong
  | reservedPrefix
  | reservedNamespace
  | unboundPrefix (name : String)
  | emptyBinding
  | duplicateAttribute (name : String)
  /-- A tag has more attributes than are kept. -/
  | tooManyAttributes
  | mismatchedEnd (name : String)
  | illegalCharacter
  | badReference
  | undefinedEntity (name : String)
  /-- Entities expand too deep or too far. -/
  | runawayEntity
  | badInstruction
  | badDoctype
  /-- Text or a reference stands outside every element. -/
  | outsideRoot
  | noRoot
deriving DecidableEq, Repr

/-- The cause in words. -/
def Malformed.message : Malformed → String
  | .undecodable => "the bytes are not text in the encoding of the document"
  | .unknownEncoding label => "unknown encoding " ++ label
  | .conflictingEncoding label => "the byte order mark contradicts the encoding " ++ label
  | .badDeclaration => "the XML declaration is malformed"
  | .unexpectedEnd => "unexpected end of the document"
  | .unexpected what => "unexpected " ++ what
  | .badName => "malformed name"
  | .nameTooLong => "the name is too long"
  | .reservedPrefix => "the prefix is reserved"
  | .reservedNamespace => "the namespace is reserved"
  | .unboundPrefix name => "the prefix of " ++ name ++ " is not bound"
  | .emptyBinding => "a prefix cannot be bound to nothing"
  | .tooManyAttributes => "too many attributes"
  | .duplicateAttribute name => "attribute " ++ name ++ " appears twice"
  | .mismatchedEnd name => "the end tag " ++ name ++ " does not match"
  | .illegalCharacter => "the character is not allowed"
  | .badReference => "malformed reference"
  | .undefinedEntity name => "entity " ++ name ++ " is not defined"
  | .runawayEntity => "entities expand without bound"
  | .badInstruction => "malformed processing instruction"
  | .badDoctype => "malformed document type declaration"
  | .outsideRoot => "text outside the root element"
  | .noRoot => "no root element"

end Netconf.Xml
