import SchemaTypes.Json.Literal
import SchemaTypes.Decode.Source

/-! Reading JSON text from its beginning to its end, so that of several problems the first one
counts. Lists and objects nest at most 127 deep, except in values that are passed over. -/

namespace SchemaTypes

open Decode

/-- A reader of JSON text: how many levels may still be entered, and the text that is left. -/
abbrev JsonReader := ReaderT Nat (StateT (List Char) (Except Problem))

namespace JsonReader

def refuse {α : Type} (p : Problem) : JsonReader α := fun _ _ => .error p

def isSpace (c : Char) : Bool := c == ' ' || c == '\n' || c == '\t' || c == '\r'

def peek : JsonReader (Option Char) := fun _ cs =>
  let rest := cs.dropWhile isSpace
  .ok (rest.head?, rest)

def advance : JsonReader Unit := fun _ cs => .ok ((), cs.drop 1)

/-- A bound on how often anything can still be read. -/
def remaining : JsonReader Nat := fun _ cs => .ok (cs.length + 1, cs)

def scan {α : Type} (f : List Char → Except Problem (α × List Char)) : JsonReader α :=
  fun _ cs => f cs

def enter {α : Type} (inner : JsonReader α) : JsonReader α
  | 0 => fun _ => .error .tooDeep
  | level + 1 => fun cs => inner level (cs.drop 1)

/-- The letters that must follow the first one of `null`, `true` or `false`. -/
def scanLetters : List Char → List Char → Except Problem (Unit × List Char)
  | [], cs => .ok ((), cs)
  | _ :: _, [] => .error .endInValue
  | letter :: letters, c :: cs =>
    if c = letter then scanLetters letters cs else .error .expectedIdentifier

def word (s : String) : JsonReader Unit := scan fun cs => scanLetters (s.toList.drop 1) (cs.drop 1)

def string : JsonReader String := scan fun cs => do
  let (s, rest) ← Json.scanString [] (cs.drop 1)
  return (String.ofList s, rest)

def number : JsonReader Json := scan fun cs => do
  let (literal, rest) ← Json.scanNumber .endInValue cs
  return (← literal.value, rest)

def isNumberStart (c : Char) : Bool := c == '-' || c.isDigit

def scalar (c : Char) : JsonReader Json := do
  if c = 'n' then
    word "null"
    return .null
  else if c = 't' then
    word "true"
    return .bool true
  else if c = 'f' then
    word "false"
    return .bool false
  else if c = '"' then return .string (← string)
  else if isNumberStart c then number
  else refuse .expectedValue

def describe : Json → Found
  | .null => .null
  | .bool b => .bool b
  | .int n => .int n
  | .float x => .float x
  | .string s => .string s
  | .array _ => .sequence
  | .object _ => .map

/-- The refusal of a value that starts with the given character. A scalar is read first and may
have a problem of its own. -/
def mismatch {α : Type} (expected : String) (c : Char) : JsonReader α := do
  if c = '[' then refuse (.wrongType .sequence expected)
  else if c = '{' then refuse (.wrongType .map expected)
  else refuse (.wrongType (describe (← scalar c)) expected)

def valueStart : JsonReader Char := do
  match ← peek with
  | some c => return c
  | none => refuse .endInValue

/-- Whether a list goes on, past the comma before its next item. -/
def moreItems (first : Bool) : JsonReader Bool := do
  match ← peek with
  | none => refuse .endInList
  | some ']' => return false
  | some c =>
    if first then return true
    else if c = ',' then
      advance
      match ← peek with
      | some ']' => refuse .trailingComma
      | some _ => return true
      | none => refuse .endInValue
    else refuse .expectedListEnd

/-- Whether an object goes on, past the comma before its next key. -/
def moreEntries (first : Bool) : JsonReader Bool := do
  match ← peek with
  | none => refuse .endInObject
  | some '}' => return false
  | some c =>
    if first then
      if c = '"' then return true else refuse .keyNotString
    else if c = ',' then
      advance
      match ← peek with
      | some '"' => return true
      | some '}' => refuse .trailingComma
      | some _ => refuse .keyNotString
      | none => refuse .endInValue
    else refuse .expectedObjectEnd

def colon : JsonReader Unit := do
  match ← peek with
  | some ':' => advance
  | some _ => refuse .expectedColon
  | none => refuse .endInObject

/-- The items up to the end of a list, at most as many as the bound. -/
def itemsWithin {α : Type} (item : JsonReader α) (first : Bool) : Nat → JsonReader (List α)
  | 0 => refuse .endInList
  | bound + 1 => do
    if ← moreItems first then return (← item) :: (← itemsWithin item false bound)
    else return []

/-- The steps for the entries up to the end of an object, at most as many as the bound. -/
def stepsWithin {σ : Type} (objection : String → σ → Option Problem)
    (step : String → σ → JsonReader σ) (first : Bool) (state : σ) : Nat → JsonReader σ
  | 0 => refuse .endInObject
  | bound + 1 => do
    if ← moreEntries first then
      let name ← string
      match objection name state with
      | some problem => refuse problem
      | none =>
        colon
        stepsWithin objection step false (← step name state) bound
    else return state

def items {α : Type} (item : JsonReader α) : JsonReader (List α) :=
  enter do
    let found ← itemsWithin item true (← remaining)
    advance
    return found

def steps {σ : Type} (objection : String → σ → Option Problem)
    (step : String → σ → JsonReader σ) (state : σ) : JsonReader σ :=
  enter do
    let state ← stepsWithin objection step true state (← remaining)
    advance
    return state

def addEntry {α : Type} (item : JsonReader α) (name : String) (found : List (String × α)) :
    JsonReader (List (String × α)) := do
  return (name, ← item) :: found

def pairs {α : Type} (item : JsonReader α) : JsonReader (List (String × α)) := do
  return (← steps (fun _ _ => none) (addEntry item) []).reverse

def rawScalar : Json → Raw
  | .null => .null
  | .bool b => .bool b
  | .int n => .int n
  | .float x => .float x
  | .string s => .text s
  | .array _ => .null
  | .object _ => .null

/-- A value read with nothing known of its shape. The recursion follows the levels that may still
be entered. -/
def rawWithin : Nat → JsonReader Raw
  | 0 => do
    let c ← valueStart
    if c = '[' ∨ c = '{' then refuse .tooDeep else return rawScalar (← scalar c)
  | level + 1 => do
    let c ← valueStart
    if c = '[' then return .list (← items (rawWithin level))
    else if c = '{' then
      return .map ((← pairs (rawWithin level)).map fun (name, r) => (.text name, r))
    else return rawScalar (← scalar c)

def raw : JsonReader Raw := do rawWithin (← read)

def skipNumber (cs : List Char) : Except Problem (Unit × List Char) := do
  return ((), (← Json.scanNumber .invalidNumber cs).2)

/-- What passing over a list or an object must find next: the next item or key, or its end. -/
def skipSeparator (closing : Char) (atEnd wrong : Problem) (first : Bool) : JsonReader Bool := do
  match ← peek with
  | none => refuse atEnd
  | some c =>
    if c = closing then
      advance
      return false
    else if first then return true
    else if c = ',' then
      advance
      return true
    else refuse wrong

def skipKey : JsonReader Unit := do
  match ← peek with
  | some '"' => scan fun cs => do return ((), ← Json.skipString (cs.drop 1))
  | some _ => refuse .keyNotString
  | none => refuse .endInObject
  colon

mutual

/-- Passes over a value, at most as many parts of it as the bound. -/
def skipWithin : Nat → JsonReader Unit
  | 0 => refuse .endInValue
  | bound + 1 => do
    let c ← valueStart
    if c = '[' then
      advance
      skipItems true bound
    else if c = '{' then
      advance
      skipEntries true bound
    else if c = '"' then scan fun cs => do return ((), ← Json.skipString (cs.drop 1))
    else if isNumberStart c then scan skipNumber
    else discard (scalar c)

def skipItems (first : Bool) : Nat → JsonReader Unit
  | 0 => refuse .endInList
  | bound + 1 => do
    if ← skipSeparator ']' .endInList .expectedListEnd first then
      skipWithin bound
      skipItems false bound

def skipEntries (first : Bool) : Nat → JsonReader Unit
  | 0 => refuse .endInObject
  | bound + 1 => do
    if ← skipSeparator '}' .endInObject .expectedObjectEnd first then
      skipKey
      skipWithin bound
      skipEntries false bound

end

def skip : JsonReader Unit := do skipWithin (2 * (← remaining))

def text : JsonReader String := do
  let c ← valueStart
  if c = '"' then string else mismatch "a string" c

def flag : JsonReader Bool := do
  let c ← valueStart
  if c = 't' then
    word "true"
    return true
  else if c = 'f' then
    word "false"
    return false
  else mismatch "a boolean" c

def choice (names : List String) : JsonReader String := do
  let name ← text
  if names.contains name then return name else refuse (.unknownVariant name names)

def optional {α : Type} (item : JsonReader α) : JsonReader (Option α) := do
  if (← peek) = some 'n' then
    word "null"
    return none
  else return some (← item)

def list {α : Type} (item : JsonReader α) : JsonReader (List α) := do
  let c ← valueStart
  if c = '[' then items item else mismatch "a sequence" c

def entries {α : Type} (item : JsonReader α) : JsonReader (List (String × α)) := do
  let c ← valueStart
  if c = '{' then pairs item else mismatch "a map" c

def keywords {σ : Type} (name : String) (objection : String → σ → Option Problem)
    (step : String → σ → JsonReader σ) (start : σ) : JsonReader σ := do
  let c ← valueStart
  if c = '{' then steps objection step start else mismatch ("struct " ++ name) c

/-- Fields by position; items beyond the last field are refused. -/
def positions {σ : Type} (step : String → σ → JsonReader σ) (first : Bool) :
    List String → σ → JsonReader σ
  | [], state => do
    match ← peek with
    | none => refuse .endInList
    | some ']' => return state
    | some ',' =>
      advance
      if (← peek) = some ']' then refuse .trailingComma else refuse .trailingCharacters
    | some _ => refuse .trailingCharacters
  | name :: names, state => do
    if ← moreItems first then positions step false names (← step name state)
    else return state

def record {σ : Type} (name : String) (names : List String)
    (objection : String → σ → Option Problem) (step : String → σ → JsonReader σ) (start : σ) :
    JsonReader σ := do
  let c ← valueStart
  if c = '[' then
    enter do
      let state ← positions step true names start
      advance
      return state
  else if c = '{' then
    let known (key : String) (state : σ) : JsonReader σ := do
      if names.contains key then step key state
      else
        skip
        return state
    steps (fun key state => if names.contains key then objection key state else none) known start
  else mismatch ("struct " ++ name) c

end JsonReader

instance : Source JsonReader where
  refuse := JsonReader.refuse
  text := JsonReader.text
  flag := JsonReader.flag
  choice := JsonReader.choice
  optional := JsonReader.optional
  list := JsonReader.list
  entries := JsonReader.entries
  keywords := JsonReader.keywords
  record := JsonReader.record
  raw := JsonReader.raw
  json := do return (← JsonReader.raw).json?.getD .null

def JsonReader.levels : Nat := 127

/-- Reads a whole text; only blanks may follow the value. -/
def JsonReader.run {α : Type} (reader : JsonReader α) (text : String) : Except Problem α := do
  let (a, rest) ← reader JsonReader.levels text.toList
  if (rest.dropWhile JsonReader.isSpace).isEmpty then return a
  else .error .trailingCharacters

namespace Json

def parse (text : String) : Except Problem Json :=
  JsonReader.run (Source.json (m := JsonReader)) text

end Json

end SchemaTypes
