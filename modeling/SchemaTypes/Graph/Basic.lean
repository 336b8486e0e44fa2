import SchemaTypes.Graph.Node

/-! Schema graphs. Nodes are added but never removed, so a number stands for one node for good. -/

namespace SchemaTypes

/-- The dialect decides how a schema says that it admits null. -/
inductive Dialect where
  | jsonSchema
  | swagger2
  | openApi3
  deriving DecidableEq

def Dialect.declaresNull : Dialect → Node → Bool
  | jsonSchema, _ => false
  | swagger2, node => node.xNullable == some true
  | openApi3, node => node.nullable == some true

structure Graph where
  nodes : Array Node := #[]

namespace Graph

def size (g : Graph) : Nat := g.nodes.size

def node (g : Graph) (id : SchemaId) : Node := g.nodes.getD id {}

def push (g : Graph) (node : Node) : Graph := ⟨g.nodes.push node⟩

def set (g : Graph) (id : SchemaId) (node : Node) : Graph := ⟨g.nodes.setIfInBounds id node⟩

def update (g : Graph) (id : SchemaId) (f : Node → Node) : Graph := g.set id (f (g.node id))

def ids (g : Graph) : List SchemaId := List.range g.size

def follow (g : Graph) : Nat → SchemaId → SchemaId
  | 0, id => id
  | steps + 1, id =>
    match (g.node id).reference with
    | some target => g.follow steps target
    | none => id

/-- The schema at the end of the references from `id`. On a cycle it is one of the cycle. -/
def actual (g : Graph) (id : SchemaId) : SchemaId := g.follow g.size id

def actualNode (g : Graph) (id : SchemaId) : Node := g.node (g.actual id)

def isReference (g : Graph) (id : SchemaId) : Bool := (g.node id).reference.isSome

/-- Whether a schema admits null, looking at most `depth` levels into `oneOf`. -/
def isNullableWithin (g : Graph) (dialect : Dialect) : Nat → SchemaId → Bool
  | 0, _ => false
  | depth + 1, id =>
    let node := g.node id
    node.enumeration.any Member.isNull ||
      node.hasType .null ||
      (node.hasNoType &&
        node.oneOf.any fun
          | some alternative => g.isNullableWithin dialect depth alternative
          | none => true) ||
      dialect.declaresNull node

def isNullable (g : Graph) (dialect : Dialect) (id : SchemaId) : Bool :=
  g.isNullableWithin dialect g.size id

def isActualNullable (g : Graph) (dialect : Dialect) (id : SchemaId) : Bool :=
  g.isNullable dialect (g.actual id)

def actualDiscriminator (g : Graph) (id : SchemaId) : Option (Discriminator SchemaId) :=
  (g.node id).discriminator <|> (g.actualNode id).discriminator

/-- The alternatives that do not themselves admit null. -/
def solidAlternatives (g : Graph) (id : SchemaId) : List SchemaId :=
  (g.node id).alternatives.filter fun alternative => !g.isNullable .jsonSchema alternative

/-- The schema without its nullable wrapping: if exactly one alternative does not admit null, it
is that one. Enumerations without a type and discriminated objects stay as they are. -/
def removeNullability (g : Graph) (id : SchemaId) : SchemaId :=
  let node := g.node id
  if node.hasNoType && node.isEnumeration then id
  else if node.isObject && (g.actualDiscriminator id).isSome then id
  else
    match g.solidAlternatives id with
    | [only] => only
    | _ => id

/-- Whether a schema found among definitions gets a type of its own. -/
def isDefinitionType (g : Graph) (inlineNamedAny : Bool) (id : SchemaId) : Bool :=
  let node := g.node id
  if node.isAny && inlineNamedAny then false
  else
    !node.isTuple && !node.isDictionary && !node.isArray &&
      (node.isEnumeration || node.hasNoType || node.isObject)

/-- The schema that a usage is resolved by: the usage itself if a definition type stands behind
it, else the schema at the end of its references. -/
def resolvable (g : Graph) (inlineNamedAny : Bool) (id : SchemaId) : SchemaId :=
  let bare := g.removeNullability id
  let actual := g.actual bare
  if g.isDefinitionType inlineNamedAny actual then bare else actual

def generatesType (g : Graph) (inlineNamedAny : Bool) (id : SchemaId) : Bool :=
  let id := g.resolvable inlineNamedAny id
  let node := g.node id
  node.reference.isSome || (node.isObject && !node.isDictionary && !node.isAny)

/-- The first key under which some node defines a schema. -/
def definitionKey (g : Graph) (id : SchemaId) : Option String :=
  g.ids.findSome? fun owner =>
    ((g.node owner).definitions.find? fun (_, definition) => g.actual definition == id).map (·.1)

end Graph

/-- A schema graph with the root of the document it came from. -/
structure Document where
  graph : Graph
  root : SchemaId := 0

def Document.definitions (d : Document) : List (String × SchemaId) :=
  (d.graph.node d.root).definitions

end SchemaTypes
