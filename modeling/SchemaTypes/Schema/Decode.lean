import SchemaTypes.Decode.RawSource
import SchemaTypes.Entries
import SchemaTypes.Schema.Basic

/-! Decoding schemas. The keywords of the outermost schema are decoded as they are read. A schema
below it is read whole first: it is a reference if it has a text `$ref`, else an inline schema. -/

namespace SchemaTypes

open Decode Source

section

variable {m : Type → Type} [Source m]

def JsonType.decode : m JsonType := do
  let name ← choice JsonType.names
  match JsonType.ofName? name with
  | some type => return type
  | none => refuse (.unknownVariant name JsonType.names)

def Discriminator.decode : m (Discriminator String) := do
  let step (name : String) (d : Option String × List (String × String)) :
      m (Option String × List (String × String)) := do
    if name == "propertyName" then return (some (← text), d.2)
    else return (d.1, Entries.ofList (← entries text))
  let found ← fields "Discriminator" ["propertyName", "mapping"] step (none, [])
  match found with
  | (some property, mapping) => return ⟨property, mapping⟩
  | (none, _) => refuse (.missingField "propertyName")

end

def TypeSet.ofRaw? (r : Raw) : Option TypeSet :=
  (RawReader.decode JsonType.decode r).map .single <|>
    (RawReader.decode (list JsonType.decode) r).map .multiple

def DiscriminatorForm.ofRaw? : Raw → Option DiscriminatorForm
  | .text s => some (.name s)
  | r => (RawReader.decode Discriminator.decode r).map .object

def Items.ofRaw? (schema : Raw → Option Schema) (r : Raw) : Option (Items Schema) :=
  (schema r).map .each <|>
    match r with
    | .list items => (items.mapM schema).map .tuple
    | _ => none

def Additional.ofRaw? (schema : Raw → Option Schema) : Raw → Option (Additional Schema)
  | .bool flag => some (.allowed flag)
  | r => (schema r).map .schema

def refTarget? : Raw → Option String
  | .map entries =>
    let step (_ : String) (_ : Option String) : RawReader (Option String) := do
      return some (← text)
    (RawReader.decode (fields "Ref" ["$ref"] step none) (.map entries)).join
  | _ => none

namespace Keywords

def names : List String :=
  ["type", "format", "title", "description", "nullable", "x-nullable", "properties", "required",
    "additionalProperties", "patternProperties", "x-dictionaryKey", "items", "allOf", "oneOf",
    "anyOf", "discriminator", "enum", "definitions", "$defs", "components"]

variable {m : Type → Type} [Source m]

def decodeSchemas (schema : Raw → Option Schema) : m (List (String × Schema)) := do
  return Entries.ofList (← entries (Decode.oneOf "SchemaOrRef" schema))

def decodeComponents (schema : Raw → Option Schema) : m (List (String × Schema)) :=
  fields "Components" ["schemas"] (fun _ _ => decodeSchemas schema) []

/-- Reads the value of one keyword; `schema` decodes the schemas below. -/
def decodeKeyword (schema : Raw → Option Schema) (name : String) (k : Keywords Schema) :
    m (Keywords Schema) := do
  let child : m Schema := Decode.oneOf "SchemaOrRef" schema
  match name with
  | "type" => return { k with types := ← optional (Decode.oneOf "TypeSet" TypeSet.ofRaw?) }
  | "format" => return { k with format := ← optional text }
  | "title" => return { k with title := ← optional text }
  | "description" => return { k with description := ← optional text }
  | "nullable" => return { k with nullable := ← optional flag }
  | "x-nullable" => return { k with xNullable := ← optional flag }
  | "properties" => return { k with properties := ← decodeSchemas schema }
  | "required" => return { k with required := ← list text }
  | "additionalProperties" =>
    let decode := Additional.ofRaw? schema
    return { k with additional := ← optional (Decode.oneOf "AdditionalProperties" decode) }
  | "patternProperties" => return { k with patterns := ← decodeSchemas schema }
  | "x-dictionaryKey" => return { k with dictionaryKey := ← optional child }
  | "items" =>
    return { k with items := ← optional (Decode.oneOf "ItemsOrTuple" (Items.ofRaw? schema)) }
  | "allOf" => return { k with allOf := ← list child }
  | "oneOf" => return { k with oneOf := ← list (optional child) }
  | "anyOf" => return { k with anyOf := ← list child }
  | "discriminator" =>
    let decode := DiscriminatorForm.ofRaw?
    return { k with discriminator := ← optional (Decode.oneOf "DiscriminatorSpec" decode) }
  | "enum" => return { k with enumeration := ← list json }
  | "definitions" => return { k with definitions := ← decodeSchemas schema }
  | "$defs" => return { k with defs := ← decodeSchemas schema }
  | "components" => return { k with components := ← optional (decodeComponents schema) }
  | _ =>
    match (← raw).json? with
    | some value => return { k with extra := Entries.put name value k.extra }
    | none => refuse .keyNotString

def repeatedKeyword (name : String) (state : List String × Keywords Schema) : Option Problem :=
  if names.contains name then repetition name state else none

def decode (schema : Raw → Option Schema) : m (Keywords Schema) := do
  return (← keywords "Schema" repeatedKeyword (marking (decodeKeyword schema)) ([], {})).2

end Keywords

namespace Schema

/-- Decodes a schema in which maps and lists nest less deeply than the bound. -/
def ofRawWithin? : Nat → Raw → Option Schema
  | 0, _ => none
  | bound + 1, r =>
    (refTarget? r).map .ref <|>
      (RawReader.decode (Keywords.decode (ofRawWithin? bound)) r).map .inline

def ofRaw? (r : Raw) : Option Schema := ofRawWithin? (r.depth + 1) r

def decodeRoot {m : Type → Type} [Source m] : m (Keywords Schema) := Keywords.decode ofRaw?

end Schema

end SchemaTypes
