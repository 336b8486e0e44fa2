import SchemaTypes.Session.Basic

/-! What happens to a definition before it gets its name. Several alternatives without a type
become the members of an enumeration, and a discriminated choice gets a wrapper that composes its
subtypes. -/

namespace SchemaTypes

namespace Graph

/-- Reads the alternatives of a schema without a type as its enumeration. -/
def expandAlternatives (g : Graph) (id : SchemaId) : Graph :=
  if (g.node id).hasNoType && 1 < (g.solidAlternatives id).length then
    g.update id fun node =>
      let members := node.oneOf.map fun
        | some alternative => .schema alternative
        | none => .literal .null
      { node with enumeration := node.enumeration ++ members }
  else g

def remapping? (wrapper subtype : SchemaId) (value : String)
    (d : Discriminator SchemaId) : List Remapping :=
  match d.mapping.lookup value with
  | some previous => if previous = wrapper then [] else [⟨value, subtype, previous, wrapper⟩]
  | none => []

/-- Maps a value of a subtype's discriminator to the wrapper. -/
def mapValue (property : String) (wrapper : SchemaId) (value : String) (subtype : SchemaId)
    (g : Graph) : Graph × List Remapping :=
  let d := (g.node subtype).discriminator.getD ⟨property, []⟩
  let d' := { d with mapping := Entries.put value wrapper d.mapping }
  (g.update subtype fun node => { node with discriminator := some d' },
    remapping? wrapper subtype value d)

def compose (wrapper part : SchemaId) (g : Graph) : Graph :=
  g.update wrapper fun node => { node with allOf := node.allOf ++ [part] }

def composeSubtypes (property : String) (wrapper : SchemaId) :
    List (String × SchemaId) → Graph → Graph × List Remapping
  | [], g => (g, [])
  | (value, target) :: rest, g =>
    let subtype := g.actual target
    let (g, first) := mapValue property wrapper value subtype (g.compose wrapper subtype)
    let (g, later) := composeSubtypes property wrapper rest g
    (g, first ++ later)

/-- A new schema that composes the subtypes of a discriminated choice and then the choice. -/
def wrapChoice (g : Graph) (id : SchemaId) : Option (Graph × SchemaId × List Remapping) :=
  match g.actualDiscriminator id with
  | none => none
  | some d =>
    if (g.node id).oneOf.isEmpty then none
    else
      let wrapper := g.size
      let (g, remappings) := composeSubtypes d.property wrapper d.mapping (g.push {})
      some (g.compose wrapper id, wrapper, remappings)

end Graph

namespace Session

/-- The schema that carries the name of a definition, and the session after its preparation. -/
def prepare (s : Session) (id : SchemaId) : SchemaId × Session :=
  match s.wrapper? id with
  | some wrapper => (wrapper, s)
  | none =>
    if s.prepared.contains id then (id, s)
    else
      let s := { s with prepared := id :: s.prepared, graph := s.graph.expandAlternatives id }
      match s.graph.wrapChoice id with
      | some (graph, wrapper, remappings) =>
        (wrapper, { s with
          graph
          wrappers := s.wrappers ++ [(id, wrapper)]
          remappings := s.remappings ++ remappings })
      | none => (id, s)

end Session

def SessionM.prepare (id : SchemaId) : SessionM SchemaId := modifyGet (·.prepare id)

end SchemaTypes
