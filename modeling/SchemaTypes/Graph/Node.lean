import SchemaTypes.Entries
import SchemaTypes.Schema.Basic

/-! Nodes of a schema graph. A node names the schemas it refers to by their numbers. -/

namespace SchemaTypes

abbrev SchemaId := Nat

/-- A member of an enumeration: a value, or a schema that stands for its values. -/
inductive Member where
  | literal (value : Json)
  | schema (id : SchemaId)

namespace Member

def isNull : Member → Bool
  | literal value => value.isNull
  | schema _ => false

def isSchema : Member → Bool
  | literal _ => false
  | schema _ => true

def literal? : Member → Option Json
  | literal value => some value
  | schema _ => none

end Member

structure Node where
  reference : Option SchemaId := none
  types : List JsonType := []
  format : Option String := none
  title : Option String := none
  description : Option String := none
  nullable : Option Bool := none
  xNullable : Option Bool := none
  properties : List (String × SchemaId) := []
  required : List String := []
  closed : Bool := false
  additional : Option SchemaId := none
  patterns : List (String × SchemaId) := []
  dictionaryKey : Option SchemaId := none
  items : Option (Items SchemaId) := none
  allOf : List SchemaId := []
  anyOf : List SchemaId := []
  oneOf : List (Option SchemaId) := []
  enumeration : List Member := []
  discriminator : Option (Discriminator SchemaId) := none
  definitions : List (String × SchemaId) := []
  extensions : List (String × Json) := []
  isProperty : Bool := false

namespace Node

def hasType (node : Node) (type : JsonType) : Bool := node.types.contains type

def hasNoType (node : Node) : Bool := node.types.isEmpty

def primaryType (node : Node) : Option JsonType := node.types.find? (· != .null)

def isRequired (node : Node) (property : String) : Bool := node.required.contains property

def isEnumeration (node : Node) : Bool := !node.enumeration.isEmpty

def isObject (node : Node) : Bool := node.hasType .object

def isArray (node : Node) : Bool := node.hasType .array

def isTuple (node : Node) : Bool :=
  node.isArray &&
    match node.items with
    | some (.tuple _) => true
    | _ => false

/-- An object without properties of its own whose values have schemas. -/
def isDictionary (node : Node) : Bool :=
  node.isObject && node.properties.isEmpty &&
    (node.additional.isSome || !node.patterns.isEmpty)

/-- Nothing restricts the values. -/
def isAny (node : Node) : Bool :=
  (node.hasNoType || node.isObject) &&
    node.reference.isNone &&
    node.allOf.isEmpty &&
    node.anyOf.isEmpty &&
    node.oneOf.isEmpty &&
    node.properties.isEmpty &&
    node.patterns.isEmpty &&
    !node.closed &&
    node.additional.isNone &&
    node.enumeration.isEmpty &&
    node.discriminator.isNone

def alternatives (node : Node) : List SchemaId := node.oneOf.filterMap id

def isExtension (name : String) : Bool := "x-".toList.isPrefixOf name.toList

def ofKeywords (k : Keywords SchemaId) (discriminator : Option (Discriminator SchemaId))
    (isProperty : Bool) : Node where
  types := (k.types.map TypeSet.toList).getD []
  format := k.format
  title := k.title
  description := k.description
  nullable := k.nullable
  xNullable := k.xNullable
  properties := k.properties
  required := k.required
  closed :=
    match k.additional with
    | some (.allowed flag) => !flag
    | _ => false
  additional := k.additionalSchema
  patterns := k.patterns
  dictionaryKey := k.dictionaryKey
  items := k.items
  allOf := k.allOf
  anyOf := k.anyOf
  oneOf := k.oneOf
  enumeration := k.enumeration.map .literal
  discriminator := discriminator
  definitions := Entries.putNew [] (k.sections.flatMap (·.2))
  extensions := k.extra.filter fun (name, _) => isExtension name
  isProperty := isProperty

end Node

end SchemaTypes
