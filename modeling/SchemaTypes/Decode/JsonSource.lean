import SchemaTypes.Decode.Source

/-! Decoding a JSON value. Entries are taken in the order in which the value holds them. -/

namespace SchemaTypes.Decode

abbrev ValueReader := ReaderT Json (Except Problem)

namespace ValueReader

def found : Json → Found
  | .null => .null
  | .bool b => .bool b
  | .int n => .int n
  | .float x => .float x
  | .string s => .string s
  | .array _ => .sequence
  | .object _ => .map

def mismatch {α : Type} (expected : String) (j : Json) : Except Problem α :=
  .error (.wrongType (found j) expected)

def known (names : List String) (name : String) : Except Problem String :=
  if names.contains name then .ok name else .error (.unknownVariant name names)

def choice (names : List String) : ValueReader String
  | .string s => known names s
  | .object [(name, value)] => do
    let name ← known names name
    if value.isNull then return name else mismatch "unit" value
  | .object _ => .error (.wrongValue .map "map with a single key")
  | j => mismatch "string or map" j

def raw : Json → Raw
  | .null => .null
  | .bool b => .bool b
  | .int n => .int n
  | .float x => .float x
  | .string s => .text s
  | .array items => .list (rawItems items)
  | .object entries => .map (rawEntries entries)
where
  rawItems : List Json → List Raw
    | [] => []
    | item :: rest => raw item :: rawItems rest
  rawEntries : List (String × Json) → List (Raw × Raw)
    | [] => []
    | (key, value) :: rest => (.text key, raw value) :: rawEntries rest

def entrySteps {σ : Type} (objection : String → σ → Option Problem)
    (step : String → σ → ValueReader σ) : List (String × Json) → σ → Except Problem σ
  | [], state => .ok state
  | (name, value) :: rest, state =>
    match objection name state with
    | some problem => .error problem
    | none => do entrySteps objection step rest (← step name state value)

def positionSteps {σ : Type} (step : String → σ → ValueReader σ) (tooLong : Problem) :
    List String → List Json → σ → Except Problem σ
  | _, [], state => .ok state
  | [], _ :: _, _ => .error tooLong
  | name :: names, value :: rest, state => do
    positionSteps step tooLong names rest (← step name state value)

end ValueReader

open ValueReader in
instance : Source ValueReader where
  refuse problem := fun _ => .error problem
  text
    | .string s => .ok s
    | j => mismatch "a string" j
  flag
    | .bool b => .ok b
    | j => mismatch "a boolean" j
  choice := ValueReader.choice
  optional reader
    | .null => .ok none
    | j => (reader j).map some
  list reader
    | .array items => items.mapM reader
    | j => mismatch "a sequence" j
  entries reader
    | .object entries => entries.mapM fun (key, value) => do return (key, ← reader value)
    | j => mismatch "a map" j
  keywords name objection step start
    | .object entries => entrySteps objection step entries start
    | j => mismatch ("struct " ++ name) j
  record name names objection step start
    | .object entries =>
      entrySteps objection step (entries.filter fun (key, _) => names.contains key) start
    | .array items =>
      positionSteps step (.wrongLength items.length "fewer elements in array") names items start
    | j => mismatch ("struct " ++ name) j
  raw j := .ok (ValueReader.raw j)
  json j := .ok j

end SchemaTypes.Decode
