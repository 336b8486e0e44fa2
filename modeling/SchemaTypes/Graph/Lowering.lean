import SchemaTypes.Graph.Basic
import SchemaTypes.Schema.Basic

/-! The graph of a document. Every definition gets its number before any schema is lowered, so
that references, also cyclic ones, find their target by its pointer. -/

namespace SchemaTypes

inductive ReferenceError where
  | invalidFormat (target : String)
  | targetNotFound (target : String)

def ReferenceError.message : ReferenceError → String
  | invalidFormat target => "invalid reference format: " ++ target
  | targetNotFound target => "reference target not found: " ++ target

/-- What references can name: definitions by their pointers, and those of the root by their
names. -/
structure Scope where
  pointers : List (String × SchemaId)
  rootNames : List (String × SchemaId)

namespace Schema

/-- The paths of the definitions below a schema, in the order in which they are numbered. -/
def declared : Schema → Path → List Path :=
  fold (fun _ _ => []) fun k path =>
    k.children.flatMap fun (place, _, below) =>
      let path := path ++ [place]
      match place with
      | .definition _ _ => path :: below path
      | .dictionaryKey => []
      | _ => below path

end Schema

namespace Scope

def ofKeywords (k : Keywords Schema) : Scope :=
  let paths := [] :: (Schema.inline k).declared []
  let pointers := paths.zipIdx.map fun (path, id) => (Path.text path, id)
  let rootNames := k.definitionPlaces.filterMap fun
    | (.definition group name, _) =>
      (pointers.lookup (Path.text [.definition group name])).map fun id => (name, id)
    | _ => none
  ⟨pointers, rootNames⟩

/-- The schema that a reference points at. Slashes at its end do not count. -/
def resolve (scope : Scope) (target : String) : Except ReferenceError SchemaId :=
  if target.toList.head? != some '#' then .error (.invalidFormat target)
  else
    match scope.pointers.lookup (Pointer.dropTrailingSlashes target) with
    | some id => .ok id
    | none => .error (.targetNotFound target)

/-- The schema that a discriminator maps a value to: a reference or the name of a definition. -/
def resolveMapped (scope : Scope) (target : String) : Except ReferenceError SchemaId :=
  if target.toList.head? = some '#' then scope.resolve target
  else
    match scope.rootNames.lookup target with
    | some id => .ok id
    | none => .error (.targetNotFound target)

/-- Without a mapping each reference among the alternatives is mapped by its last segment. -/
def implicitMapping (scope : Scope) (alternatives : List (Option Schema)) :
    Except ReferenceError (List (String × SchemaId)) :=
  alternatives.foldlM (fun mapping alternative =>
    match alternative with
    | some (.ref target) => do
      let id ← scope.resolve target
      return Entries.put (Pointer.unescape (Pointer.lastSegment target)) id mapping
    | _ => return mapping) []

def explicitMapping (scope : Scope) (mapping : List (String × String)) :
    Except ReferenceError (List (String × SchemaId)) :=
  mapping.mapM fun (value, target) => do return (value, ← scope.resolveMapped target)

def lowerDiscriminator (scope : Scope) (alternatives : List (Option Schema)) :
    Option DiscriminatorForm → Except ReferenceError (Option (Discriminator SchemaId))
  | none => .ok none
  | some (.name property) => .ok (some ⟨property, []⟩)
  | some (.object ⟨property, mapping⟩) => do
    let mapping ←
      if mapping.isEmpty then scope.implicitMapping alternatives
      else scope.explicitMapping mapping
    return some ⟨property, mapping⟩

end Scope

abbrev Lowering := StateT Graph (Except ReferenceError)

namespace Lowering

def add (node : Node) : Lowering SchemaId := fun g => .ok (g.size, g.push node)

def fill (scope : Scope) (path : Path) (lower : Lowering Node) : Lowering SchemaId := do
  match scope.pointers.lookup (Path.text path) with
  | some id =>
    let node ← lower
    modify fun g => g.set id node
    return id
  | none => throw (.targetNotFound (Path.text path))

/-- The node of a schema; the nodes of the schemas below it are added before it. -/
def node (scope : Scope) : Schema → Path → Bool → Lowering Node :=
  Schema.fold
    (fun target _ isProperty => do
      return { reference := some (← scope.resolve target), isProperty })
    fun k path isProperty => do
      let ids ← k.traverse fun place (_, lower) =>
        let path := path ++ [place]
        match place with
        | .definition _ _ => fill scope path (lower path false)
        | place => do add (← lower path place.isProperty)
      let alternatives := k.oneOf.map fun entry => entry.map (·.1)
      let discriminator ← scope.lowerDiscriminator alternatives k.discriminator
      return Node.ofKeywords ids discriminator isProperty

end Lowering

/-- The graph of a document; the root has number 0 and the definitions follow it. -/
def Document.ofKeywords (k : Keywords Schema) : Except ReferenceError Document := do
  let scope := Scope.ofKeywords k
  let reserved : Graph := ⟨Array.replicate scope.pointers.length {}⟩
  let (root, graph) ← (Lowering.node scope (.inline k) [] false).run reserved
  return { graph := graph.set 0 root }

end SchemaTypes
