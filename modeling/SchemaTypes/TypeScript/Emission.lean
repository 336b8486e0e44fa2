import SchemaTypes.TypeScript.Declaration
import SchemaTypes.TypeScript.Resolution

/-! The declarations of all named schemas. Declaring one may name further schemas, whose
declarations follow. -/

namespace SchemaTypes

def nonempty (s : String) : Option String := if s.isEmpty then none else some s

def describe (description : Option String) : Option String :=
  (description.map Text.oneLine).bind nonempty

/-- A choice as it is declared: its name, and the schema whose alternatives are its variants. -/
structure Choice where
  name : String
  schema : SchemaId

namespace Choice

/-- Whether the choice shows its description; a property shows it itself. -/
def hasDescription (g : Graph) (choice : Choice) : Bool :=
  let node := g.node choice.schema
  !node.isProperty && (node.description.map (!Text.isBlankText ·)).getD false

def description (g : Graph) (choice : Choice) : Option String :=
  (g.node choice.schema).description.map Text.oneLine

end Choice

namespace SessionM

def resolveVariants : List SchemaId → SessionM (List TypeExpr)
  | [] => pure []
  | id :: rest => do return (← resolve id false none) :: (← resolveVariants rest)

def variants (choice : Choice) : SessionM (List TypeExpr) := do
  resolveVariants ((← graph).node choice.schema).alternatives

def declareChoice (choice : Choice) : SessionM Declaration := do
  let found ← variants choice
  let g ← graph
  return {
    name := choice.name
    description := if choice.hasDescription g then choice.description g else none
    shape := .union (if found.isEmpty then [.never] else found) }

/-- What an interface takes from the schemas that it is composed of. -/
structure Parts where
  parents : List String := []
  properties : List (String × SchemaId) := []
  required : List String := []

/-- References are extended by name, inline schemas give their properties. -/
def collectParts (parts : Parts) : List SchemaId → SessionM Parts
  | [] => pure parts
  | id :: rest => do
    let g ← graph
    if g.isReference id then
      let name ← typeName id none
      collectParts { parts with parents := parts.parents ++ [name] } rest
    else
      let node := g.actualNode id
      collectParts
        { parts with
          properties := Entries.putAll parts.properties node.properties
          required := parts.required ++ node.required }
        rest

def fieldType (discriminator : Option (Discriminator SchemaId)) (key : String)
    (id : SchemaId) : SessionM FieldType := do
  match discriminator.filter (·.property == key) with
  | some d => return .literals (d.mapping.map (·.1))
  | none =>
    let nullable := (← graph).isActualNullable (← dialect) id
    return .expr (← resolve id nullable (some key))

def declareField (discriminator : Option (Discriminator SchemaId)) (required : List String)
    (key : String) (id : SchemaId) : SessionM Field := do
  return {
    key
    isOptional := !required.contains key
    type := ← fieldType discriminator key id
    description := describe ((← graph).node id).description }

def declareFields (discriminator : Option (Discriminator SchemaId)) (required : List String) :
    List (String × SchemaId) → SessionM (List Field)
  | [] => pure []
  | (key, id) :: rest => do
    return (← declareField discriminator required key id) ::
      (← declareFields discriminator required rest)

/-- The field of a discriminator that is not among the properties. -/
def addedField (properties : List (String × SchemaId)) :
    Option (Discriminator SchemaId) → List Field
  | some d =>
    if Entries.has d.property properties then []
    else [{ key := d.property, isOptional := false, type := .literals (d.mapping.map (·.1)) }]
  | none => []

def declareInterface (id : SchemaId) (name : String) : SessionM Declaration := do
  let node := (← graph).node id
  let parts ← collectParts { required := node.required } node.allOf
  let properties := Entries.putAll parts.properties node.properties
  let discriminator := node.discriminator.filter (!·.mapping.isEmpty)
  let fields ← declareFields discriminator parts.required properties
  return {
    name
    description := describe node.description
    shape := .interface parts.parents (fields ++ addedField properties discriminator)
      node.additional.isSome }

def declare (id : SchemaId) (name : String) : SessionM Declaration := do
  let s ← get
  let node := s.graph.node id
  match s.wrapped? id with
  | some base => declareChoice ⟨name, base⟩
  | none =>
    if node.enumeration.any Member.isSchema then declareChoice ⟨name, id⟩
    else if node.isEnumeration then
      return {
        name
        description := describe node.description
        shape := .enumeration (node.enumeration.filterMap Member.literal?) }
    else if node.isArray || node.isDictionary then
      return {
        name
        description := describe node.description
        shape := .synonym (← aliasTarget id) }
    else if node.isAny then
      return { name, description := describe node.description, shape := .synonym .any }
    else declareInterface id name

/-- The declarations from the given position on, at most as many as the bound. -/
def declarationsWithin : Nat → Nat → SessionM (List Declaration)
  | 0, _ => throw .exhausted
  | bound + 1, position => do
    match (← get).types[position]? with
    | none => return []
    | some (id, name) =>
      return (← declare id name) :: (← declarationsWithin bound (position + 1))

def declarations : SessionM (List Declaration) := do
  declarationsWithin (2 * (← graph).size + 2) 0

def emit : SessionM String := do
  return fileText (← read).typescript.exported (← declarations)

end SessionM

end SchemaTypes
