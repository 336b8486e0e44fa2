import SchemaTypes.Text.Words

/-! Identifiers, and the identifier that a type takes from an arbitrary text. -/

namespace SchemaTypes.Text

def isIdentifierStart (c : Char) : Bool := isAlphabetic c || c == '_' || c == '$'

def isIdentifierPart (c : Char) : Bool := isAlphanumeric c || c == '_' || c == '$'

def isIdentifier (s : String) : Bool :=
  match s.toList with
  | [] => false
  | c :: rest => isIdentifierStart c && rest.all isIdentifierPart

def anonymous : String := "Anonymous"

def typeIdentifier (s : String) : String :=
  match pascalCase s.toList with
  | [] => anonymous
  | c :: rest => if c.isDigit then String.ofList ('_' :: c :: rest) else String.ofList (c :: rest)

end SchemaTypes.Text
