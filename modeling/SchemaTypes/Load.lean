import SchemaTypes.Graph.Lowering
import SchemaTypes.Json.Reader
import SchemaTypes.Schema.Decode
import SchemaTypes.Settings
import SchemaTypes.Yaml.Reader

/-! Loading documents: a text is decoded into schemas, and those are lowered into a graph. -/

namespace SchemaTypes

open Decode

inductive ParseError where
  | json (problem : Problem)
  | yaml

inductive LoadError where
  | parse (error : ParseError)
  | reference (error : ReferenceError)

def ParseError.message : ParseError → String
  | json problem => "failed to parse JSON: " ++ problem.message
  | yaml => "failed to parse YAML"

def LoadError.message : LoadError → String
  | parse error => "parse error: " ++ error.message
  | reference error => "reference error: " ++ error.message

def parseJson (text : String) : Except ParseError (Keywords Schema) :=
  (JsonReader.run (Schema.decodeRoot (m := JsonReader)) text).mapError .json

def parseYaml (text : String) : Except ParseError (Keywords Schema) :=
  match Yaml.Reader.run (Schema.decodeRoot (m := Yaml.Reader)) text with
  | some keywords => .ok keywords
  | none => .error .yaml

def Document.ofParsed (parsed : Except ParseError (Keywords Schema)) :
    Except LoadError Document := do
  (Document.ofKeywords (← parsed.mapError .parse)).mapError .reference

def Document.ofJson (text : String) : Except LoadError Document := ofParsed (parseJson text)

def Document.ofYaml (text : String) : Except LoadError Document := ofParsed (parseYaml text)

def Settings.ofYaml? (text : String) : Option Settings :=
  Yaml.Reader.run (Settings.decode (m := Yaml.Reader)) text

end SchemaTypes
