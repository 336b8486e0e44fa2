import SchemaTypes.Generation
import SchemaTypes.Load
import SchemaTypes.Summary
import SchemaTypes.Workspace.Basic

/-! The commands: generating a file of declarations, listing the names of types, and making a file
of settings. -/

namespace SchemaTypes

inductive SummaryFormat where
  | yaml
  | json
  deriving DecidableEq

inductive Command where
  | generate (input output : Option String)
  | resolve (input : String) (format : SummaryFormat)
  | init (force : Bool)
  deriving DecidableEq

/-- Why a command failed: a message and the causes behind it, the nearest one first. -/
structure Report where
  message : String
  causes : List String := []

namespace Report

def splitAtFeeds (s : String) : List String := (Text.splitLines s.toList).map String.ofList

def causeLines (heading indent cause : String) : List String :=
  match splitAtFeeds cause with
  | [] => [heading]
  | first :: rest => (heading ++ first) :: rest.map (indent ++ ·)

def numberedCause (n : Nat) (cause : String) : List String :=
  let number := toString n
  let blanks := "".pushn ' ' (5 - number.length)
  causeLines (blanks ++ number ++ ": ") "       " cause

def lines (r : Report) : List String :=
  let causes :=
    match r.causes with
    | [] => []
    | [cause] => ["", "Caused by:"] ++ causeLines "    " "    " cause
    | causes =>
      ["", "Caused by:"] ++ causes.zipIdx.flatMap fun (cause, n) => numberedCause n cause
  splitAtFeeds ("Error: " ++ r.message) ++ causes

end Report

def NamingError.causes (e : NamingError) : List String := [e.message]

def Failure.causes : Failure → List String
  | .naming e => (Failure.naming e).message :: e.causes
  | .exhausted => [Failure.exhausted.message]

def ParseError.causes : ParseError → List String
  | .json problem => [(ParseError.json problem).message, problem.message]
  | .yaml => [ParseError.yaml.message]

def LoadError.causes : LoadError → List String
  | .parse e => (LoadError.parse e).message :: e.causes
  | .reference e => [(LoadError.reference e).message, e.message]

def emissionMessage (e : Failure) : String := "type resolution failed: " ++ e.message

namespace Settings

def fileName : String := ".jstr.yaml"

def defaultText : String :=
"# jstr configuration
input: schema.json
output: src/generated

resolver:
  inline_named_any: false
  schema_type: json_schema   # json_schema | swagger2 | open_api3
  naming:
    reserved_type_names: []
    type_name_mappings: \x7b\x7d
      # LegacyName: ModernName

typescript:
  export_types: true
  null_value: \"null\"         # \"null\" | undefined
  root_type_name: Root
"

inductive Error where
  | read (path : String) (error : FileError)
  | parse (path : String)

namespace Error

def message : Error → String
  | read path error => "failed to read config " ++ path ++ ": " ++ error.message
  | parse path => "failed to parse config " ++ path

def causes : Error → List String
  | read path error => [(read path error).message, error.message]
  | parse path => [(parse path).message]

end Error

variable {m : Type → Type} [Workspace m]

def load (path : String) : m (Except Error (Option Settings)) := do
  match ← Workspace.readText path with
  | .error .notFound => return .ok none
  | .error e => return .error (.read path e)
  | .ok text =>
    match Settings.ofYaml? text with
    | some settings => return .ok (some settings)
    | none => return .error (.parse path)

end Settings

namespace Command

open Workspace

variable {m : Type → Type} [Workspace m]

abbrev Outcome (m : Type → Type) := ExceptT Report m

def fileFailure {α : Type} (message : String) : Except FileError α → Outcome m α
  | .ok a => pure a
  | .error e => throw ⟨message, [e.message]⟩

def say (line : String) : Outcome m Unit := ExceptT.lift (note line)

def loadSettings : Outcome m Settings := do
  match ← ExceptT.lift (Settings.load (m := m) Settings.fileName) with
  | .ok found => return found.getD {}
  | .error e => throw ⟨"failed to load " ++ Settings.fileName, e.causes⟩

/-- Whether a file holds YAML, by its extension; all others hold JSON. -/
def isYamlPath (path : String) : Bool :=
  match FilePath.extension path with
  | some "yaml" => true
  | some "yml" => true
  | _ => false

def loadDocument (path : String) : Outcome m Document := do
  let text ← fileFailure ("failed to read " ++ path) (← ExceptT.lift (readText path))
  match if isYamlPath path then Document.ofYaml text else Document.ofJson text with
  | .ok d => return d
  | .error e => throw ⟨"failed to load " ++ path, e.causes⟩

def writeFiles (folder : String) : List GeneratedFile → Outcome m Unit
  | [] => pure ()
  | file :: rest => do
    let path := FilePath.join folder file.path
    fileFailure ("failed to write " ++ path) (← ExceptT.lift (writeText path file.content))
    say ("  wrote " ++ path)
    writeFiles folder rest

def runGenerate (input output : Option String) : Outcome m Unit := do
  let settings ← loadSettings
  let input := input.getD settings.input
  let output := output.getD settings.output
  let d ← loadDocument input
  say ("Generating " ++ input ++ " → " ++ output)
  match (d.run settings d.emit).1 with
  | .error e =>
    throw ⟨"failed to generate TypeScript declarations", emissionMessage e :: e.causes⟩
  | .ok files =>
    fileFailure ("failed to create output directory " ++ output)
      (← ExceptT.lift (makeFolders output))
    writeFiles output files
    say ("Generated " ++ toString files.length ++ " files in " ++ output)

def summaryText (format : SummaryFormat) (summary : Summary) : String :=
  match format with
  | .yaml => summary.yaml
  | .json => summary.toJson.pretty ++ "\n"

def runResolve (input : String) (format : SummaryFormat) : Outcome m Unit := do
  let settings ← loadSettings
  let d ← loadDocument input
  let (result, session) := d.run settings d.register
  match result with
  | .error e => throw ⟨"failed to resolve type names", e.causes⟩
  | .ok () => ExceptT.lift (print (summaryText format session.summary))

def runInit (force : Bool) : Outcome m Unit := do
  let isThere :=
    match ← ExceptT.lift (readText (m := m) Settings.fileName) with
    | .error .notFound => false
    | _ => true
  if isThere && !force then
    throw ⟨Settings.fileName ++ " already exists. Use --force to overwrite.", []⟩
  match ← ExceptT.lift (writeText (m := m) Settings.fileName Settings.defaultText) with
  | .ok () => say ("Created " ++ Settings.fileName)
  | .error e => throw ⟨e.message, []⟩

/-- Runs a command; a failing one prints why. Returns whether it succeeded. -/
def run (command : Command) : m Bool := do
  let outcome :=
    match command with
    | generate input output => runGenerate input output
    | resolve input format => runResolve input format
    | init force => runInit force
  match ← outcome.run with
  | .ok () => return true
  | .error report =>
    for line in report.lines do
      note line
    return false

/-! Command lines. -/

structure Options where
  input : Option String := none
  output : Option String := none
  format : Option String := none
  force : Bool := false

def attached? (names : List String) (word : String) : Option String :=
  names.findSome? fun name =>
    if name.toList.isPrefixOf word.toList then
      let rest := word.toList.drop name.length
      let isLong := "--".toList.isPrefixOf name.toList
      match rest with
      | [] => none
      | '=' :: value => some (String.ofList value)
      | value => if isLong then none else some (String.ofList value)
    else none

def inputNames : List String := ["--input", "-i"]

def outputNames : List String := ["--output", "-o"]

def formatNames : List String := ["--format"]

def setOnce (old : Option String) (value : String) : Option (Option String) :=
  if old.isSome then none else some (some value)

def setOption (names : List String) (value : String) (o : Options) : Option Options :=
  if names == inputNames then (setOnce o.input value).map fun input => { o with input }
  else if names == outputNames then (setOnce o.output value).map fun output => { o with output }
  else (setOnce o.format value).map fun format => { o with format }

def optionFor? (allowed : List (List String)) (word : String) :
    Option (List String × Option String) :=
  allowed.findSome? fun names =>
    if names.contains word then some (names, none)
    else (attached? names word).map fun value => (names, some value)

def readOptions (allowed : List (List String)) (forceAllowed : Bool) :
    Options → List String → Option Options
  | o, [] => some o
  | o, word :: rest =>
    if forceAllowed && word == "--force" && !o.force then
      readOptions allowed forceAllowed { o with force := true } rest
    else
      match optionFor? allowed word, rest with
      | some (names, some value), rest => do
        readOptions allowed forceAllowed (← setOption names value o) rest
      | some (names, none), value :: rest => do
        readOptions allowed forceAllowed (← setOption names value o) rest
      | _, _ => none

def formatOf? : Option String → Option SummaryFormat
  | none => some .yaml
  | some "yaml" => some .yaml
  | some "json" => some .json
  | some _ => none

def ofWords? : List String → Option Command
  | "generate" :: words => do
    let o ← readOptions [inputNames, outputNames] false {} words
    return .generate o.input o.output
  | "resolve" :: words => do
    let o ← readOptions [inputNames, formatNames] false {} words
    return .resolve (← o.input) (← formatOf? o.format)
  | "init" :: words => do
    let o ← readOptions [] true {} words
    return .init o.force
  | _ => none

def usage : String :=
  "usage: generate [-i FILE] [-o FOLDER] | resolve -i FILE [--format yaml|json] | init [--force]"

end Command

end SchemaTypes
