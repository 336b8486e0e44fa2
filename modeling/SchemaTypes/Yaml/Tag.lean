/-! Tags, which say of what kind a node is. A tag is a sequence of bytes, since its escapes may
spell any bytes, and it ends before the first zero. -/

namespace SchemaTypes.Yaml

structure Tag where
  bytes : List UInt8
  deriving DecidableEq

namespace Tag

def ofBytes (bytes : List UInt8) : Tag := ⟨bytes.takeWhile (· != 0)⟩

def ofText (s : String) : Tag := ofBytes (s.toList.flatMap String.utf8EncodeChar)

instance : Append Tag := ⟨fun a b => ⟨a.bytes ++ b.bytes⟩⟩

def isEmpty (tag : Tag) : Bool := tag.bytes.isEmpty

def mark : Tag := ofText "!"

def standard : Tag := ofText "tag:yaml.org,2002:"

def bool : Tag := standard ++ ofText "bool"

def int : Tag := standard ++ ofText "int"

def float : Tag := standard ++ ofText "float"

def null : Tag := standard ++ ofText "null"

/-- Whether the tag has a meaning in its own document only. -/
def isLocal (tag : Tag) : Bool := tag.bytes.head? == mark.bytes.head?

/-- The name of a local tag, if it is a text. -/
def localName? (tag : Tag) : Option String :=
  if tag.isLocal then String.fromUTF8? (tag.bytes.drop 1).toByteArray else none

end Tag

end SchemaTypes.Yaml
