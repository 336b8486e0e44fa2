import SchemaTypes.Decode.Problem
import SchemaTypes.Decode.Raw

/-! Readers that a value of a known shape can be decoded from. Each operation reads the value
that the reader stands at. -/

namespace SchemaTypes.Decode

class Source (m : Type → Type) extends Monad m where
  refuse {α : Type} : Problem → m α
  text : m String
  flag : m Bool
  choice : List String → m String
  optional {α : Type} : m α → m (Option α)
  list {α : Type} : m α → m (List α)
  entries {α : Type} : m α → m (List (String × α))
  /-- The entries of a map in turn, each by the step for its key. What speaks against a key is
  asked before its value is looked at. -/
  keywords {σ : Type} (name : String) (objection : String → σ → Option Problem)
    (step : String → σ → m σ) (start : σ) : m σ
  /-- The entries for known fields, in a map or, by position, in a list. -/
  record {σ : Type} (name : String) (fields : List String)
    (objection : String → σ → Option Problem) (step : String → σ → m σ) (start : σ) : m σ
  raw : m Raw
  json : m Json

variable {m : Type → Type} [Source m]

/-- A field comes at most once; the fields read so far stand beside the state. -/
def repetition {σ : Type} (name : String) (state : List String × σ) : Option Problem :=
  if state.1.contains name then some (.repeatedField name) else none

def marking {σ : Type} (step : String → σ → m σ) (name : String) (state : List String × σ) :
    m (List String × σ) := do
  return (name :: state.1, ← step name state.2)

def fields {σ : Type} (name : String) (names : List String) (step : String → σ → m σ)
    (start : σ) : m σ := do
  return (← Source.record name names repetition (marking step) ([], start)).2

def oneOf {α : Type} (name : String) (decode : Raw → Option α) : m α := do
  match decode (← Source.raw) with
  | some a => return a
  | none => Source.refuse (.noVariant name)

end SchemaTypes.Decode
