import SchemaTypes.Numeric.Shortest
import SchemaTypes.Text.Quoted

/-! What can be wrong with a text that is read into a value of a known shape, and the wording of
each problem. -/

namespace SchemaTypes.Decode

open Numeric Text

inductive Found where
  | null
  | bool (b : Bool)
  | int (n : Int)
  | float (x : Double)
  | string (s : String)
  | sequence
  | map

def Found.describe : Found → String
  | null => "null"
  | bool b => "boolean `" ++ toString b ++ "`"
  | int n => "integer `" ++ toString n ++ "`"
  | float x => "floating point `" ++ x.text ++ "`"
  | string s => "string " ++ messageQuoted s
  | sequence => "sequence"
  | map => "map"

inductive Problem where
  | endInList
  | endInObject
  | endInString
  | endInValue
  | expectedColon
  | expectedListEnd
  | expectedObjectEnd
  | expectedIdentifier
  | expectedValue
  | invalidEscape
  | invalidNumber
  | numberOutOfRange
  | controlCharacter
  | keyNotString
  | loneSurrogate
  | trailingComma
  | trailingCharacters
  | unfinishedHexEscape
  | tooDeep
  | wrongType (found : Found) (expected : String)
  | wrongValue (found : Found) (expected : String)
  | wrongLength (length : Nat) (expected : String)
  | repeatedField (name : String)
  | missingField (name : String)
  | noVariant (type : String)
  | unknownVariant (name : String) (expected : List String)

def quotedName (name : String) : String := "`" ++ name ++ "`"

def alternatives : List String → String
  | [] => "there are no variants"
  | [a] => "expected " ++ quotedName a
  | [a, b] => "expected " ++ quotedName a ++ " or " ++ quotedName b
  | names => "expected one of " ++ ", ".intercalate (names.map quotedName)

def Problem.message : Problem → String
  | endInList => "EOF while parsing a list"
  | endInObject => "EOF while parsing an object"
  | endInString => "EOF while parsing a string"
  | endInValue => "EOF while parsing a value"
  | expectedColon => "expected `:`"
  | expectedListEnd => "expected `,` or `]`"
  | expectedObjectEnd => "expected `,` or `\x7d`"
  | expectedIdentifier => "expected ident"
  | expectedValue => "expected value"
  | invalidEscape => "invalid escape"
  | invalidNumber => "invalid number"
  | numberOutOfRange => "number out of range"
  | controlCharacter => "control character (\\u0000-\\u001F) found while parsing a string"
  | keyNotString => "key must be a string"
  | loneSurrogate => "lone leading surrogate in hex escape"
  | trailingComma => "trailing comma"
  | trailingCharacters => "trailing characters"
  | unfinishedHexEscape => "unexpected end of hex escape"
  | tooDeep => "recursion limit exceeded"
  | wrongType found expected => "invalid type: " ++ found.describe ++ ", expected " ++ expected
  | wrongValue found expected => "invalid value: " ++ found.describe ++ ", expected " ++ expected
  | wrongLength n expected => "invalid length " ++ toString n ++ ", expected " ++ expected
  | repeatedField name => "duplicate field " ++ quotedName name
  | missingField name => "missing field " ++ quotedName name
  | noVariant type => "data did not match any variant of untagged enum " ++ type
  | unknownVariant name expected =>
    "unknown variant " ++ quotedName name ++ ", " ++ alternatives expected

end SchemaTypes.Decode
