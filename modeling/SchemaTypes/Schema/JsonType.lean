/-! The values of the `type` keyword. -/

namespace SchemaTypes

inductive JsonType where
  | string
  | number
  | integer
  | boolean
  | array
  | object
  | null
  | file
  deriving DecidableEq

namespace JsonType

def all : List JsonType := [string, number, integer, boolean, array, object, null, file]

def name : JsonType → String
  | string => "string"
  | number => "number"
  | integer => "integer"
  | boolean => "boolean"
  | array => "array"
  | object => "object"
  | null => "null"
  | file => "file"

def names : List String := all.map name

def ofName? (s : String) : Option JsonType := all.find? (·.name == s)

end JsonType

end SchemaTypes
