import SchemaTypes.Json.Basic
import SchemaTypes.Pointer
import SchemaTypes.Schema.JsonType

/-! Schemas as written in a document. `Keywords α` are the keywords of one schema with an `α` in
place of each schema below it, so that the same shape serves parsed and numbered schemas. -/

namespace SchemaTypes

/-- The `type` keyword: one type, or a list. -/
inductive TypeSet where
  | single (type : JsonType)
  | multiple (types : List JsonType)
  deriving DecidableEq

def TypeSet.toList : TypeSet → List JsonType
  | single type => [type]
  | multiple types => types

/-- The `items` keyword: a schema for every element, or one for each position. -/
inductive Items (α : Type) where
  | each (item : α)
  | tuple (items : List α)
  deriving DecidableEq

/-- The `additionalProperties` keyword: whether they are allowed, or a schema for them. -/
inductive Additional (α : Type) where
  | allowed (flag : Bool)
  | schema (value : α)
  deriving DecidableEq

/-- A property that tells subtypes apart, with the subtype for each of its values. -/
structure Discriminator (α : Type) where
  property : String
  mapping : List (String × α) := []
  deriving DecidableEq

/-- The `discriminator` keyword: a property name alone, or an object. -/
inductive DiscriminatorForm where
  | name (property : String)
  | object (value : Discriminator String)
  deriving DecidableEq

structure Keywords (α : Type) where
  types : Option TypeSet := none
  format : Option String := none
  title : Option String := none
  description : Option String := none
  nullable : Option Bool := none
  xNullable : Option Bool := none
  properties : List (String × α) := []
  required : List String := []
  additional : Option (Additional α) := none
  patterns : List (String × α) := []
  dictionaryKey : Option α := none
  items : Option (Items α) := none
  allOf : List α := []
  /-- An entry is nothing where the document has a null. -/
  oneOf : List (Option α) := []
  anyOf : List α := []
  discriminator : Option DiscriminatorForm := none
  enumeration : List Json := []
  definitions : List (String × α) := []
  defs : List (String × α) := []
  components : Option (List (String × α)) := none
  extra : List (String × Json) := []

inductive Schema where
  | ref (target : String)
  | inline (keywords : Keywords Schema)

inductive Section where
  | definitions
  | defs
  | components
  deriving DecidableEq

def Section.path : Section → String
  | definitions => "definitions"
  | defs => "$defs"
  | components => "components/schemas"

/-- A place below a schema where another schema stands. -/
inductive Place where
  | definition (group : Section) (name : String)
  | property (name : String)
  | pattern (regex : String)
  | additional
  | dictionaryKey
  | items
  | item (index : Nat)
  | allOf (index : Nat)
  | anyOf (index : Nat)
  | oneOf (index : Nat)
  deriving DecidableEq

namespace Place

def text : Place → String
  | definition group name => "/" ++ group.path ++ "/" ++ Pointer.escape name
  | property name => "/properties/" ++ Pointer.escape name
  | pattern regex => "/patternProperties/" ++ Pointer.escape regex
  | additional => "/additionalProperties"
  | dictionaryKey => "/x-dictionaryKey"
  | items => "/items"
  | item i => "/items/" ++ toString i
  | allOf i => "/allOf/" ++ toString i
  | anyOf i => "/anyOf/" ++ toString i
  | oneOf i => "/oneOf/" ++ toString i

def isProperty : Place → Bool
  | property _ => true
  | _ => false

end Place

/-- The way from the root of a document to a schema. -/
abbrev Path := List Place

def Path.text (path : Path) : String := path.foldl (fun s place => s ++ place.text) "#"

namespace Keywords

variable {α β : Type}

def sections (k : Keywords α) : List (Section × List (String × α)) :=
  [(.definitions, k.definitions), (.defs, k.defs), (.components, k.components.getD [])]

/-- The definitions of all sections, each with its place. -/
def definitionPlaces (k : Keywords α) : List (Place × α) :=
  k.sections.flatMap fun (group, entries) =>
    entries.map fun (name, a) => (.definition group name, a)

def additionalSchema (k : Keywords α) : Option α :=
  match k.additional with
  | some (.schema a) => some a
  | _ => none

def itemPlaces (k : Keywords α) : List (Place × α) :=
  match k.items with
  | some (.each a) => [(.items, a)]
  | some (.tuple as) => as.zipIdx.map fun (a, i) => (.item i, a)
  | none => []

/-- The schemas right below, with their places: definitions first. -/
def children (k : Keywords α) : List (Place × α) :=
  k.definitionPlaces ++
  k.properties.map (fun (name, a) => (.property name, a)) ++
  k.patterns.map (fun (regex, a) => (.pattern regex, a)) ++
  (k.additionalSchema.map fun a => (.additional, a)).toList ++
  (k.dictionaryKey.map fun a => (.dictionaryKey, a)).toList ++
  k.itemPlaces ++
  k.allOf.zipIdx.map (fun (a, i) => (.allOf i, a)) ++
  k.anyOf.zipIdx.map (fun (a, i) => (.anyOf i, a)) ++
  k.oneOf.zipIdx.filterMap (fun (entry, i) => entry.map fun a => (.oneOf i, a))

section Traverse

variable {m : Type → Type} [Monad m]

def traverseEntries (f : String → α → m β) (entries : List (String × α)) :
    m (List (String × β)) :=
  entries.mapM fun (name, a) => do return (name, ← f name a)

def traverseList (f : Nat → α → m β) (as : List α) : m (List β) :=
  as.zipIdx.mapM fun (a, i) => f i a

def traverseOption (f : α → m β) : Option α → m (Option β)
  | none => pure none
  | some a => do return some (← f a)

def traverseAdditional (f : α → m β) : Option (Additional α) → m (Option (Additional β))
  | none => pure none
  | some (.allowed flag) => pure (some (.allowed flag))
  | some (.schema a) => do return some (.schema (← f a))

def traverseItems (f : Place → α → m β) : Option (Items α) → m (Option (Items β))
  | none => pure none
  | some (.each a) => do return some (.each (← f .items a))
  | some (.tuple as) => do return some (.tuple (← traverseList (fun i => f (.item i)) as))

/-- Replaces the schemas right below, in the order of `children`. -/
def traverse (f : Place → α → m β) (k : Keywords α) : m (Keywords β) := do
  let definitions ← traverseEntries (fun n => f (.definition .definitions n)) k.definitions
  let defs ← traverseEntries (fun n => f (.definition .defs n)) k.defs
  let components ←
    traverseOption (traverseEntries fun n => f (.definition .components n)) k.components
  let properties ← traverseEntries (fun n => f (.property n)) k.properties
  let patterns ← traverseEntries (fun n => f (.pattern n)) k.patterns
  let additional ← traverseAdditional (f .additional) k.additional
  let dictionaryKey ← traverseOption (f .dictionaryKey) k.dictionaryKey
  let items ← traverseItems f k.items
  let allOf ← traverseList (fun i => f (.allOf i)) k.allOf
  let anyOf ← traverseList (fun i => f (.anyOf i)) k.anyOf
  let oneOf ← traverseList (fun i => traverseOption (f (.oneOf i))) k.oneOf
  return { k with
    definitions, defs, components, properties, patterns, additional, dictionaryKey, items,
    allOf, anyOf, oneOf }

end Traverse

end Keywords

namespace Schema

variable {β : Type} (onRef : String → β) (onInline : Keywords (Schema × β) → β)

mutual

/-- Recursion on a schema: each schema below comes with its own result. -/
def fold : Schema → β
  | ref target => onRef target
  | inline k => onInline (foldKeywords k)

def foldKeywords : Keywords Schema → Keywords (Schema × β)
  | ⟨types, format, title, description, nullable, xNullable, properties, required, additional,
      patterns, dictionaryKey, items, allOf, oneOf, anyOf, discriminator, enumeration,
      definitions, defs, components, extra⟩ =>
    ⟨types, format, title, description, nullable, xNullable, foldEntries properties, required,
      foldAdditional additional, foldEntries patterns, foldOption dictionaryKey, foldItems items,
      foldList allOf, foldOptions oneOf, foldList anyOf, discriminator, enumeration,
      foldEntries definitions, foldEntries defs, foldSection components, extra⟩

def foldEntries : List (String × Schema) → List (String × (Schema × β))
  | [] => []
  | (name, s) :: rest => (name, (s, fold s)) :: foldEntries rest

def foldList : List Schema → List (Schema × β)
  | [] => []
  | s :: rest => (s, fold s) :: foldList rest

def foldOption : Option Schema → Option (Schema × β)
  | none => none
  | some s => some (s, fold s)

def foldOptions : List (Option Schema) → List (Option (Schema × β))
  | [] => []
  | entry :: rest => foldOption entry :: foldOptions rest

def foldAdditional : Option (Additional Schema) → Option (Additional (Schema × β))
  | none => none
  | some (.allowed flag) => some (.allowed flag)
  | some (.schema s) => some (.schema (s, fold s))

def foldItems : Option (Items Schema) → Option (Items (Schema × β))
  | none => none
  | some (.each s) => some (.each (s, fold s))
  | some (.tuple ss) => some (.tuple (foldList ss))

def foldSection : Option (List (String × Schema)) → Option (List (String × (Schema × β)))
  | none => none
  | some entries => some (foldEntries entries)

end

end Schema

end SchemaTypes
