import SchemaTypes.Json.Basic

/-! Values read before their shape is known. Entries keep their order and their repetitions, and
keys may be any values. -/

namespace SchemaTypes.Decode

open Numeric

inductive Raw where
  | null
  | bool (b : Bool)
  | int (n : Int)
  | float (x : Double)
  /-- A number that is infinite or no number. -/
  | nonfinite
  | text (s : String)
  | list (items : List Raw)
  | map (entries : List (Raw × Raw))

namespace Raw

def key? : Raw → Option String
  | text s => some s
  | _ => none

mutual

/-- The value as JSON; only texts can be keys. -/
def json? : Raw → Option Json
  | null => some .null
  | bool b => some (.bool b)
  | int n => some (.int n)
  | float x => some (.float x)
  | nonfinite => some .null
  | text s => some (.string s)
  | list items => (jsonItems? items).map .array
  | map entries => (jsonEntries? entries).map Json.sortedObject

def jsonItems? : List Raw → Option (List Json)
  | [] => some []
  | item :: rest => do return (← json? item) :: (← jsonItems? rest)

def jsonEntries? : List (Raw × Raw) → Option (List (String × Json))
  | [] => some []
  | (key, value) :: rest => do
    return (← key.key?, ← json? value) :: (← jsonEntries? rest)

end

mutual

def depth : Raw → Nat
  | list items => itemsDepth items + 1
  | map entries => entriesDepth entries + 1
  | _ => 0

def itemsDepth : List Raw → Nat
  | [] => 0
  | item :: rest => max (depth item) (itemsDepth rest)

def entriesDepth : List (Raw × Raw) → Nat
  | [] => 0
  | (key, value) :: rest => max (depth key) (max (depth value) (entriesDepth rest))

end

end Raw

end SchemaTypes.Decode
