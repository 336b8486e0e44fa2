import SchemaTypes.Schema.Basic

/-! Writing schemas as JSON: the keywords in a fixed order, without those that are absent or
empty, and the other keywords after them. -/

namespace SchemaTypes

def TypeSet.toJson : TypeSet → Json
  | single type => .string type.name
  | multiple types => .array (types.map fun type => .string type.name)

def Discriminator.toJson (d : Discriminator String) : Json :=
  let mapping : List (String × Json) :=
    if d.mapping.isEmpty then []
    else [("mapping", .object (d.mapping.map fun (value, target) => (value, .string target)))]
  .object (("propertyName", .string d.property) :: mapping)

def DiscriminatorForm.toJson : DiscriminatorForm → Json
  | name property => .string property
  | object value => value.toJson

def Items.toJson : Items Json → Json
  | each item => item
  | tuple items => .array items

def Additional.toJson : Additional Json → Json
  | allowed flag => .bool flag
  | schema value => value

namespace Keywords

def optionalEntry {α : Type} (name : String) (write : α → Json) : Option α → List (String × Json)
  | some a => [(name, write a)]
  | none => []

def listEntry (name : String) : List Json → List (String × Json)
  | [] => []
  | items => [(name, .array items)]

def mapEntry (name : String) : List (String × Json) → List (String × Json)
  | [] => []
  | entries => [(name, .object entries)]

def toJson (k : Keywords Json) : Json :=
  .object <|
    optionalEntry "type" TypeSet.toJson k.types ++
    optionalEntry "format" .string k.format ++
    optionalEntry "title" .string k.title ++
    optionalEntry "description" .string k.description ++
    optionalEntry "nullable" .bool k.nullable ++
    optionalEntry "x-nullable" .bool k.xNullable ++
    mapEntry "properties" k.properties ++
    listEntry "required" (k.required.map .string) ++
    optionalEntry "additionalProperties" Additional.toJson k.additional ++
    mapEntry "patternProperties" k.patterns ++
    optionalEntry "x-dictionaryKey" id k.dictionaryKey ++
    optionalEntry "items" Items.toJson k.items ++
    listEntry "allOf" k.allOf ++
    listEntry "oneOf" (k.oneOf.map (·.getD .null)) ++
    listEntry "anyOf" k.anyOf ++
    optionalEntry "discriminator" DiscriminatorForm.toJson k.discriminator ++
    listEntry "enum" k.enumeration ++
    mapEntry "definitions" k.definitions ++
    mapEntry "$defs" k.defs ++
    optionalEntry "components" (fun schemas => .object (mapEntry "schemas" schemas))
      k.components ++
    k.extra

end Keywords

namespace Schema

def toJson : Schema → Json :=
  fold (fun target => .object [("$ref", .string target)]) fun k =>
    (Id.run (k.traverse fun _ child => child.2)).toJson

end Schema

def Keywords.documentJson (k : Keywords Schema) : Json := (Schema.inline k).toJson

end SchemaTypes
