/-! Maps as lists of entries in the order in which keys first came. Writing a key again keeps its
place and replaces its value. -/

namespace SchemaTypes.Entries

variable {κ ν : Type} [BEq κ]

def put (key : κ) (value : ν) : List (κ × ν) → List (κ × ν)
  | [] => [(key, value)]
  | (k, v) :: rest => if k == key then (k, value) :: rest else (k, v) :: put key value rest

def putAll (entries : List (κ × ν)) (more : List (κ × ν)) : List (κ × ν) :=
  more.foldl (fun es (k, v) => put k v es) entries

/-- The map written by a list of entries: a later entry for a key replaces the value. -/
def ofList (entries : List (κ × ν)) : List (κ × ν) := putAll [] entries

def has (key : κ) (entries : List (κ × ν)) : Bool := entries.any (·.1 == key)

def putNew (entries : List (κ × ν)) (more : List (κ × ν)) : List (κ × ν) :=
  more.foldl (fun es (k, v) => if has k es then es else es ++ [(k, v)]) entries

end SchemaTypes.Entries
