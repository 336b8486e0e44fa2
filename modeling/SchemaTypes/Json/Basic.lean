import SchemaTypes.Numeric.Shortest
import SchemaTypes.Text.Quoted

/-! JSON values and their text. Whole numbers of 64 bits are exact, all others are binary64. -/

namespace SchemaTypes

open Numeric Text

inductive Json where
  | null
  | bool (b : Bool)
  | int (n : Int)
  | float (x : Double)
  | string (s : String)
  | array (items : List Json)
  | object (entries : List (String × Json))

namespace Json

def isNull : Json → Bool
  | null => true
  | _ => false

def text? : Json → Option String
  | string s => some s
  | _ => none

/-- Adds an entry in the order of keys; a key that is there takes the new value. -/
def insertSorted (key : String) (value : Json) : List (String × Json) → List (String × Json)
  | [] => [(key, value)]
  | (k, v) :: rest =>
    if key < k then (key, value) :: (k, v) :: rest
    else if key = k then (key, value) :: rest
    else (k, v) :: insertSorted key value rest

/-- An object with its keys in order, where the last entry for a key counts. -/
def sortedObject (entries : List (String × Json)) : Json :=
  object (entries.foldl (fun es (k, v) => insertSorted k v es) [])

def scalarText : Json → List Char
  | null => "null".toList
  | bool true => "true".toList
  | bool false => "false".toList
  | int n => (toString n).toList
  | float x => x.text.toList
  | string s => jsonLiteral s.toList
  | array _ => []
  | object _ => []

mutual

def compactText : Json → List Char
  | array items => '[' :: compactItems items ++ [']']
  | object entries => '{' :: compactEntries entries ++ ['}']
  | scalar => scalarText scalar

def compactItems : List Json → List Char
  | [] => []
  | [item] => compactText item
  | item :: rest => compactText item ++ ',' :: compactItems rest

def compactEntries : List (String × Json) → List Char
  | [] => []
  | [(key, value)] => jsonLiteral key.toList ++ ':' :: compactText value
  | (key, value) :: rest =>
    jsonLiteral key.toList ++ ':' :: compactText value ++ ',' :: compactEntries rest

end

def compact (j : Json) : String := String.ofList (compactText j)

def newline (indent : Nat) : List Char := '\n' :: List.replicate (2 * indent) ' '

mutual

def prettyText (indent : Nat) : Json → List Char
  | array [] => ['[', ']']
  | array (item :: rest) =>
    '[' :: prettyItems (indent + 1) (item :: rest) ++ newline indent ++ [']']
  | object [] => ['{', '}']
  | object (entry :: rest) =>
    '{' :: prettyEntries (indent + 1) (entry :: rest) ++ newline indent ++ ['}']
  | scalar => scalarText scalar

def prettyItems (indent : Nat) : List Json → List Char
  | [] => []
  | [item] => newline indent ++ prettyText indent item
  | item :: rest => newline indent ++ prettyText indent item ++ ',' :: prettyItems indent rest

def prettyEntries (indent : Nat) : List (String × Json) → List Char
  | [] => []
  | [(key, value)] =>
    newline indent ++ jsonLiteral key.toList ++ [':', ' '] ++ prettyText indent value
  | (key, value) :: rest =>
    newline indent ++ jsonLiteral key.toList ++ [':', ' '] ++ prettyText indent value ++
      ',' :: prettyEntries indent rest

end

/-- The text with one item or entry a line, two blanks deeper than its container. -/
def pretty (j : Json) : String := String.ofList (prettyText 0 j)

end Json

end SchemaTypes
