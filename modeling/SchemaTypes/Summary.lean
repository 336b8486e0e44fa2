import SchemaTypes.Session.Basic
import SchemaTypes.Yaml.Scalar

/-! A summary of the names that a session gave, as JSON and as YAML. -/

namespace SchemaTypes

open Text

structure NamedType where
  name : String
  schema : SchemaId
  wraps : Option SchemaId

structure Summary where
  schemas : Nat
  types : List NamedType

def Session.summary (s : Session) : Summary where
  schemas := s.graph.size
  types := s.types.map fun (schema, name) => ⟨name, schema, s.wrapped? schema⟩

namespace NamedType

def wrapsJson (type : NamedType) : Json := (type.wraps.map fun id => .int id).getD .null

def toJson (type : NamedType) : Json :=
  .object [("name", .string type.name), ("schema", .int type.schema), ("wraps", type.wrapsJson)]

end NamedType

namespace Summary

def toJson (s : Summary) : Json :=
  .object [("schemas", .int s.schemas), ("types", .array (s.types.map NamedType.toJson))]

/-- A name as a YAML scalar: plain if it reads back as the text it is, else between quotes. -/
def scalar (name : String) : List Char :=
  let cs := name.toList
  if Yaml.isPlainText cs then cs else '\'' :: cs ++ ['\'']

def yamlLines (type : NamedType) : List Char :=
  "- name: ".toList ++ scalar type.name ++
    "\n  schema: ".toList ++ (toString type.schema).toList ++
    "\n  wraps: ".toList ++ type.wrapsJson.compactText ++ ['\n']

def yaml (s : Summary) : String :=
  let types := if s.types.isEmpty then " []\n".toList else '\n' :: s.types.flatMap yamlLines
  String.ofList ("schemas: ".toList ++ (toString s.schemas).toList ++ "\ntypes:".toList ++ types)

end Summary

end SchemaTypes
