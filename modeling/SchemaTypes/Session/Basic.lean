import SchemaTypes.Naming

/-! The state of a session: a graph, and the names given to its schemas so far. Names are only
added; a schema that has one keeps it. -/

namespace SchemaTypes

/-- A discriminator value that was mapped to one wrapper and now is to another. -/
structure Remapping where
  value : String
  subtype : SchemaId
  previous : SchemaId
  wrapper : SchemaId

def Remapping.message (r : Remapping) : String :=
  "discriminator value " ++ Text.messageQuoted r.value ++ " on #" ++ toString r.subtype ++
    " remapped from #" ++ toString r.previous ++ " to #" ++ toString r.wrapper

inductive Failure where
  | naming (error : NamingError)
  /-- A bound on the depth of the work was too small. -/
  | exhausted

def Failure.message : Failure → String
  | naming error => "naming failed: " ++ error.message
  | exhausted => "the schemas are nested without end"

structure Environment where
  resolver : ResolverSettings
  typescript : OutputSettings
  generator : NameGenerator

def Environment.ofSettings (settings : Settings) : Environment where
  resolver := settings.resolver
  typescript := settings.typescript
  generator := Naming.default settings.resolver.naming

structure Session where
  graph : Graph
  /-- The named schemas in the order in which they were named. -/
  types : List (SchemaId × String) := []
  /-- The names that are taken. A generator sees these and not the schemas that they went to. -/
  taken : List String := []
  registering : List SchemaId := []
  prepared : List SchemaId := []
  /-- Discriminated definitions, each with the wrapper that was made for it. -/
  wrappers : List (SchemaId × SchemaId) := []
  /-- The lists and dictionaries being spelled out, each with the hint of its usage. -/
  expanding : List (SchemaId × Option String) := []
  remappings : List Remapping := []
  requests : Nat := 0

namespace Session

def nameOf? (s : Session) (id : SchemaId) : Option String := s.types.lookup id

def names (s : Session) : List String := s.types.map (·.2)

def request (s : Session) (id : SchemaId) (hint : Option String) : NameRequest :=
  ⟨s.graph, id, hint, s.taken, s.requests⟩

def give (id : SchemaId) (name : String) (s : Session) : Session :=
  { s with types := s.types ++ [(id, name)], taken := name :: s.taken }

def wrapper? (s : Session) (id : SchemaId) : Option SchemaId := s.wrappers.lookup id

def wrapped? (s : Session) (id : SchemaId) : Option SchemaId :=
  (s.wrappers.find? (·.2 == id)).map (·.1)

def beginRegistration (id : SchemaId) (s : Session) : Session :=
  { s with registering := id :: s.registering }

def endRegistration (id : SchemaId) (s : Session) : Session :=
  { s with registering := s.registering.erase id }

def beginExpansion (id : SchemaId) (hint : Option String) (s : Session) : Session :=
  { s with expanding := (id, hint) :: s.expanding }

def endExpansion (id : SchemaId) (s : Session) : Session :=
  { s with expanding := s.expanding.filter (·.1 != id) }

end Session

/-- A step of a session. What it did to the session stays when it fails. -/
abbrev SessionM := ReaderT Environment (ExceptT Failure (StateM Session))

namespace SessionM

/-- Runs an action in a changed session and changes it back, also after a failure. -/
def within {α : Type} (enter leave : Session → Session) (action : SessionM α) : SessionM α :=
  fun env s =>
    let (result, s) := action env (enter s)
    (result, leave s)

def graph : SessionM Graph := do return (← get).graph

def dialect : SessionM Dialect := do return (← read).resolver.dialect

def isDefinitionType (id : SchemaId) : SessionM Bool := do
  return (← graph).isDefinitionType (← read).resolver.inlineNamedAny id

/-- Asks for a name and keeps it if it is an identifier that is not taken. -/
def assign (id : SchemaId) (hint : Option String) : SessionM String := do
  let s ← get
  match s.nameOf? id with
  | some name => return name
  | none =>
    set { s with requests := s.requests + 1 }
    match (← read).generator (s.request id hint) with
    | .error e => throw (.naming e)
    | .ok name =>
      if !Text.isIdentifier name then throw (.naming (.invalidIdentifier name))
      else if s.taken.contains name then throw (.naming (.collision name))
      else
        modify (·.give id name)
        return name

end SessionM

end SchemaTypes
