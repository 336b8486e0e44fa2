import SchemaTypes.Decode.Source
import SchemaTypes.Yaml.Node
import SchemaTypes.Yaml.Scalar

/-! Decoding YAML documents. Where a text is wanted a scalar gives its characters, whatever they
look like; elsewhere a plain scalar gives the value that it stands for. Problems have no wording. -/

namespace SchemaTypes.Yaml

open Decode

/-- Where a reader of YAML stands: a node, and how many levels may still be entered below it. -/
structure Place where
  tree : Tree
  node : Node
  levels : Nat

/-- A reader counts the aliases that it followed. -/
abbrev Reader := ReaderT Place (StateT Nat Option)

namespace Reader

def refuse {α : Type} : Reader α := fun _ _ => none

def aliasLimit (t : Tree) : Nat := 100 * t.weight

/-- The node itself or the one that an alias stands for. -/
def target : Reader Node := fun place followed =>
  match place.node with
  | .aliasOf anchor =>
    if followed < aliasLimit place.tree then
      (place.tree.node? anchor).map fun node => (node, followed + 1)
    else none
  | node => some (node, followed)

def atNode {α : Type} (node : Node) (reader : Reader α) : Reader α :=
  fun place => reader { place with node }

def below {α : Type} (reader : Reader α) : Reader α := fun place =>
  match place.levels with
  | 0 => fun _ => none
  | levels + 1 => reader { place with levels }

def text : Reader String := do
  match ← target with
  | .scalar _ _ s => return s
  | _ => refuse

/-- A node with a local tag is a choice; its tag names the chosen one. -/
def chosen? (tag : Option Tag) : Option String := tag.bind Tag.localName?

def boolTagged (s : List Char) : Option Raw := (boolOfText? s).map .bool

def intTagged (s : List Char) : Option Raw := do
  match ← (int? s).bind (ofInt · s) with
  | .int n => return .int n
  | _ => none

def nullTagged (s : List Char) : Option Raw := if isNullText s then some .null else none

/-- The value of a scalar, by its tag if it has one. -/
def scalarValue? (tag : Option Tag) (style : Style) (text : String) : Option Raw :=
  let s := text.toList
  match tag with
  | none => if style == .plain then plainValue? s else some (.text text)
  | some tag =>
    if tag.localName?.isSome then none
    else if tag == .bool then boolTagged s
    else if tag == .int then intTagged s
    else if tag == .float then float? s
    else if tag == .null then nullTagged s
    else if tag.isLocal && style == .plain then plainValue? s
    else some (.text text)

def flag : Reader Bool := do
  match ← target with
  | .scalar tag style s =>
    if style == .plain || (style == .literal && tag == some .bool) then
      match boolOfText? s.toList with
      | some b => return b
      | none => refuse
    else refuse
  | _ => refuse

/-- Whether an optional value is there. A scalar tagged as null must read as null. -/
def isPresent : Node → Option Bool
  | .scalar tag .plain s =>
    match tag with
    | none => some (!s.isEmpty && !isNullText s.toList)
    | some tag =>
      if tag == .null then if isNullText s.toList then some false else none
      else some true
  | _ => some true

def optional {α : Type} (reader : Reader α) : Reader (Option α) := do
  let node ← target
  match isPresent node with
  | some true => return some (← atNode node reader)
  | some false => return none
  | none => refuse

def isEmptyPlain (style : Style) (s : String) : Bool := style == .plain && s.isEmpty

def list {α : Type} (reader : Reader α) : Reader (List α) := do
  match ← target with
  | .sequence _ items => below (items.mapM fun item => atNode item reader)
  | .scalar _ style s => if isEmptyPlain style s then return [] else refuse
  | _ => refuse

/-- The entries of a mapping; an empty plain scalar is a mapping without any. -/
def mappingEntries : Reader (List (Node × Node)) := do
  match ← target with
  | .mapping _ entries => return entries
  | .scalar _ style s => if isEmptyPlain style s then return [] else refuse
  | _ => refuse

def entries {α : Type} (reader : Reader α) : Reader (List (String × α)) := do
  let found ← mappingEntries
  below (found.mapM fun (key, value) => do return (← atNode key text, ← atNode value reader))

def steps {σ : Type} (objection : String → σ → Option Problem)
    (step : String → σ → Reader σ) : List (Node × Node) → σ → Reader σ
  | [], state => pure state
  | (key, value) :: rest, state => do
    let name ← atNode key text
    if (objection name state).isSome then refuse
    else steps objection step rest (← atNode value (step name state))

def keywords {σ : Type} (objection : String → σ → Option Problem)
    (step : String → σ → Reader σ) (start : σ) : Reader σ := do
  below (steps objection step (← mappingEntries) start)

def record {σ : Type} (names : List String) (objection : String → σ → Option Problem)
    (step : String → σ → Reader σ) (start : σ) : Reader σ :=
  keywords (fun name state => if names.contains name then objection name state else none)
    (fun name state => if names.contains name then step name state else pure state) start

/-- One of some names, as a text or as the local tag of a null. -/
def choice (names : List String) : Reader String := do
  let name ←
    match ← target with
    | .scalar tag style s =>
      match chosen? tag with
      | some name =>
        if style == .plain && (s.isEmpty || isNullText s.toList) then pure name else refuse
      | none => pure s
    | _ => refuse
  if names.contains name then return name else refuse

def scalar (tag : Option Tag) (style : Style) (s : String) : Reader Raw :=
  fun _ followed => (scalarValue? tag style s).map (·, followed)

/-- A value read with nothing known of its shape. The recursion follows the levels that may still
be entered. -/
def rawWithin (levels : Nat) : Reader Raw := do
  match ← target, levels with
  | .scalar tag style s, _ => scalar tag style s
  | .sequence tag items, levels + 1 =>
    if (chosen? tag).isSome then refuse
    else return .list (← items.mapM fun item => atNode item (rawWithin levels))
  | .mapping tag entries, levels + 1 =>
    if (chosen? tag).isSome then refuse
    else
      return .map (← entries.mapM fun (key, value) => do
        return (← atNode key (rawWithin levels), ← atNode value (rawWithin levels)))
  | _, _ => refuse

def raw : Reader Raw := do rawWithin (← read).levels

/-- A JSON value; keys are taken by their text. -/
def jsonWithin (levels : Nat) : Reader Json := do
  match ← target, levels with
  | .scalar tag style s, _ =>
    match (← scalar tag style s).json? with
    | some value => return value
    | none => refuse
  | .sequence tag items, levels + 1 =>
    if (chosen? tag).isSome then refuse
    else return .array (← items.mapM fun item => atNode item (jsonWithin levels))
  | .mapping tag entries, levels + 1 =>
    if (chosen? tag).isSome then refuse
    else
      return Json.sortedObject (← entries.mapM fun (key, value) => do
        return (← atNode key text, ← atNode value (jsonWithin levels)))
  | _, _ => refuse

def json : Reader Json := do jsonWithin (← read).levels

end Reader

instance : Source Reader where
  refuse _ := Reader.refuse
  text := Reader.text
  flag := Reader.flag
  choice := Reader.choice
  optional := Reader.optional
  list := Reader.list
  entries := Reader.entries
  keywords _ := Reader.keywords
  record _ := Reader.record
  raw := Reader.raw
  json := Reader.json

namespace Reader

def levels : Nat := 128

/-- Reads a whole document. One without any node reads like an empty scalar. -/
def run {α : Type} (reader : Reader α) (text : String) : Option α := do
  let tree ← Tree.ofText? text
  let (a, _) ← reader ⟨tree, tree.root.getD .empty, levels⟩ 0
  return a

end Reader

end SchemaTypes.Yaml
