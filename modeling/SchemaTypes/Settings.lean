import SchemaTypes.Decode.Source
import SchemaTypes.Entries
import SchemaTypes.Graph.Basic

/-! Settings of a project. Each field that is absent takes its default. -/

namespace SchemaTypes

open Decode Source

structure NamingSettings where
  reserved : List String := []
  mappings : List (String × String) := []

structure ResolverSettings where
  /-- Definitions that admit any value get no name. -/
  inlineNamedAny : Bool := false
  dialect : Dialect := .jsonSchema
  naming : NamingSettings := {}

inductive NullKeyword where
  | null
  | undefined
  deriving DecidableEq

structure OutputSettings where
  exported : Bool := true
  nullKeyword : NullKeyword := .null
  /-- The hint by which the root of a document is named. -/
  rootName : String := "Root"

structure Settings where
  input : String := "schema.json"
  output : String := "src/generated"
  resolver : ResolverSettings := {}
  typescript : OutputSettings := {}

namespace Dialect

def all : List Dialect := [jsonSchema, swagger2, openApi3]

def name : Dialect → String
  | jsonSchema => "json_schema"
  | swagger2 => "swagger2"
  | openApi3 => "open_api3"

end Dialect

namespace NullKeyword

def all : List NullKeyword := [null, undefined]

def name : NullKeyword → String
  | null => "null"
  | undefined => "undefined"

end NullKeyword

section

variable {m : Type → Type} [Source m]

def decodeNamed {α : Type} (name : α → String) (values : List α) : m α := do
  let names := values.map name
  let found ← choice names
  match values.find? (name · == found) with
  | some a => return a
  | none => refuse (.unknownVariant found names)

def NamingSettings.decode : m NamingSettings :=
  fields "NamingConfig" ["reserved_type_names", "type_name_mappings"]
    (fun name settings => do
      if name == "reserved_type_names" then return { settings with reserved := ← list text }
      else return { settings with mappings := Entries.ofList (← entries text) })
    {}

def ResolverSettings.decode : m ResolverSettings :=
  fields "ResolverSettings" ["inline_named_any", "schema_type", "naming"]
    (fun name settings => do
      if name == "inline_named_any" then return { settings with inlineNamedAny := ← flag }
      else if name == "schema_type" then
        return { settings with dialect := ← decodeNamed Dialect.name Dialect.all }
      else return { settings with naming := ← NamingSettings.decode })
    {}

def OutputSettings.decode : m OutputSettings :=
  fields "TypeScriptOptions" ["export_types", "null_value", "root_type_name"]
    (fun name settings => do
      if name == "export_types" then return { settings with exported := ← flag }
      else if name == "null_value" then
        return { settings with nullKeyword := ← decodeNamed NullKeyword.name NullKeyword.all }
      else return { settings with rootName := ← text })
    {}

def Settings.decode : m Settings :=
  fields "JstrConfig" ["input", "output", "resolver", "typescript"]
    (fun name settings => do
      if name == "input" then return { settings with input := ← text }
      else if name == "output" then return { settings with output := ← text }
      else if name == "resolver" then
        return { settings with resolver := ← ResolverSettings.decode }
      else return { settings with typescript := ← OutputSettings.decode })
    {}

end

end SchemaTypes
