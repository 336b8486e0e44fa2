import SchemaTypes.Decode.Source

/-! Decoding a value that was read before its shape was known. Which problem it has does not
matter, since only the outermost value reports one. -/

namespace SchemaTypes.Decode

abbrev RawReader := ReaderT Raw Option

namespace RawReader

def decode {α : Type} (reader : RawReader α) (r : Raw) : Option α := reader r

/-- The name that a value picks from a list; a whole number picks by position. -/
def name? (names : List String) : Raw → Option String
  | .text s => if names.contains s then some s else none
  | .int n => if 0 ≤ n then names[n.toNat]? else none
  | _ => none

/-- The field that a key stands for, or `none` for a key that no field has. -/
def field? (names : List String) : Raw → Option (Option String)
  | .text s => some (if names.contains s then some s else none)
  | .int n => if 0 ≤ n then some names[n.toNat]? else none
  | _ => none

def choice (names : List String) : RawReader String
  | .text s => if names.contains s then some s else none
  | .map [(key, .null)] => name? names key
  | _ => none

def stepUnless {σ : Type} (objection : String → σ → Option Problem)
    (step : String → σ → RawReader σ) (name : String) (value : Raw) (s : σ) : Option σ :=
  if (objection name s).isSome then none else step name s value

def mapSteps {σ : Type} (step : String → Raw → σ → Option σ) : List (Raw × Raw) → σ → Option σ
  | [], s => some s
  | (key, value) :: rest, s => do mapSteps step rest (← step (← key.key?) value s)

def fieldSteps {σ : Type} (names : List String) (step : String → Raw → σ → Option σ) :
    List (Raw × Raw) → σ → Option σ
  | [], s => some s
  | (key, value) :: rest, s => do
    match ← field? names key with
    | some name => fieldSteps names step rest (← step name value s)
    | none => fieldSteps names step rest s

def positionSteps {σ : Type} (step : String → Raw → σ → Option σ) :
    List String → List Raw → σ → Option σ
  | _, [], s => some s
  | [], _ :: _, _ => none
  | name :: names, value :: rest, s => do positionSteps step names rest (← step name value s)

end RawReader

instance : Source RawReader where
  refuse _ := fun _ => none
  text
    | .text s => some s
    | _ => none
  flag
    | .bool b => some b
    | _ => none
  choice := RawReader.choice
  optional reader
    | .null => some none
    | r => (reader r).map some
  list reader
    | .list items => items.mapM reader
    | _ => none
  entries reader
    | .map entries => entries.mapM fun (key, value) => do return (← key.key?, ← reader value)
    | _ => none
  keywords _ objection step start
    | .map entries => RawReader.mapSteps (RawReader.stepUnless objection step) entries start
    | _ => none
  record _ names objection step start
    | .map entries =>
      RawReader.fieldSteps names (RawReader.stepUnless objection step) entries start
    | .list items =>
      RawReader.positionSteps (RawReader.stepUnless objection step) names items start
    | _ => none
  raw r := some r
  json r := r.json?

end SchemaTypes.Decode
