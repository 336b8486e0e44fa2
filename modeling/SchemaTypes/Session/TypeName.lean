import SchemaTypes.Session.Preparation

/-! The name of a schema. Before a schema is named the definitions that it declares are, and they
may lead back to it; the schemas on the way are remembered so that this ends. -/

namespace SchemaTypes.SessionM

/-- Names every definition that gets a type, by its key. -/
def registerEach (name : SchemaId → Option String → SessionM String) :
    List (String × SchemaId) → SessionM Unit
  | [] => pure ()
  | (key, definition) :: rest => do
    let schema := (← graph).actual definition
    if ← isDefinitionType schema then
      discard (name (← prepare schema) (some key))
    registerEach name rest

/-- The name of a schema, where at most `depth` schemas wait for their definitions. -/
def typeNameWithin : Nat → SchemaId → Option String → SessionM String
  | 0, _, _ => throw .exhausted
  | depth + 1, id, hint => do
    let s ← get
    let schema := s.graph.actual (s.graph.removeNullability id)
    match s.nameOf? schema with
    | some name => return name
    | none =>
      if !s.registering.contains schema then
        within (·.beginRegistration schema) (·.endRegistration schema) do
          registerEach (typeNameWithin depth) (s.graph.node schema).definitions
      assign schema hint

/-- The name of a schema without its nullability and behind its references. -/
def typeName (id : SchemaId) (hint : Option String) : SessionM String := do
  typeNameWithin ((← graph).size + 2) id hint

def register (definitions : List (String × SchemaId)) : SessionM Unit :=
  registerEach typeName definitions

end SchemaTypes.SessionM
