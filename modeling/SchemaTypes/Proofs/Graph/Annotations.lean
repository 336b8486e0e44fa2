import SchemaTypes.Graph.Basic
import SchemaTypes.Session.Preparation
import Mathlib.Tactic.Common

/-! Annotations of a schema: its description, its format, and extensions that say nothing about
types. Nothing that is asked about a graph depends on them. -/

namespace SchemaTypes

/-- Extensions that say nothing about types. -/
def annotates (key : String) : Bool :=
  Node.isExtension key && !(["x-typeName", "x-nullable", "x-dictionaryKey"].contains key)

def withoutAnnotations {α : Type} (entries : List (String × α)) : List (String × α) :=
  entries.filter (!annotates ·.1)

def Node.bare (node : Node) : Node :=
  { node with
    format := none
    description := none
    extensions := withoutAnnotations node.extensions }

section

variable (node : Node)

@[simp] lemma Node.types_bare : node.bare.types = node.types := rfl

@[simp] lemma Node.title_bare : node.bare.title = node.title := rfl

@[simp] lemma Node.properties_bare : node.bare.properties = node.properties := rfl

@[simp] lemma Node.required_bare : node.bare.required = node.required := rfl

@[simp] lemma Node.closed_bare : node.bare.closed = node.closed := rfl

@[simp] lemma Node.additional_bare : node.bare.additional = node.additional := rfl

@[simp] lemma Node.patterns_bare : node.bare.patterns = node.patterns := rfl

@[simp] lemma Node.dictionaryKey_bare : node.bare.dictionaryKey = node.dictionaryKey := rfl

@[simp] lemma Node.items_bare : node.bare.items = node.items := rfl

@[simp] lemma Node.allOf_bare : node.bare.allOf = node.allOf := rfl

@[simp] lemma Node.anyOf_bare : node.bare.anyOf = node.anyOf := rfl

@[simp] lemma Node.oneOf_bare : node.bare.oneOf = node.oneOf := rfl

@[simp] lemma Node.enumeration_bare : node.bare.enumeration = node.enumeration := rfl

@[simp] lemma Node.discriminator_bare : node.bare.discriminator = node.discriminator := rfl

@[simp] lemma Node.definitions_bare : node.bare.definitions = node.definitions := rfl

@[simp] lemma Node.isArray_bare : node.bare.isArray = node.isArray := rfl

@[simp] lemma Node.isDictionary_bare : node.bare.isDictionary = node.isDictionary := rfl

@[simp] lemma Node.isEnumeration_bare : node.bare.isEnumeration = node.isEnumeration := rfl

@[simp] lemma Node.isAny_bare : node.bare.isAny = node.isAny := rfl

@[simp] lemma Node.alternatives_bare : node.bare.alternatives = node.alternatives := rfl

@[simp] lemma Node.primaryType_bare : node.bare.primaryType = node.primaryType := rfl

@[simp] lemma Node.hasType_bare (type : JsonType) : node.bare.hasType type = node.hasType type :=
  rfl

end

namespace Graph

variable (g : Graph) (id : SchemaId)

def bare (g : Graph) : Graph := ⟨g.nodes.map Node.bare⟩

@[simp] lemma size_bare : g.bare.size = g.size := Array.size_map

@[simp] lemma node_bare : g.bare.node id = (g.node id).bare := by
  simp only [Graph.node, bare, Array.getD_eq_getD_getElem?, Array.getElem?_map]
  cases g.nodes[id]? <;> rfl

@[simp] lemma bare_push (node : Node) : (g.push node).bare = g.bare.push node.bare := by
  simp [push, bare]

@[simp] lemma bare_set (node : Node) : (g.set id node).bare = g.bare.set id node.bare := by
  simp only [set, bare, mk.injEq]
  apply Array.ext
  · simp
  · intro i h h'
    have hlt : i < g.nodes.size := by simpa using h
    rw [Array.getElem_map, Array.getElem_setIfInBounds hlt,
      Array.getElem_setIfInBounds (by simpa using hlt), Array.getElem_map]
    split <;> rfl

lemma bare_update {f : Node → Node} (hf : ∀ node, (f node).bare = f node.bare) :
    (g.update id f).bare = g.bare.update id f := by
  simp [update, hf]

@[simp] lemma follow_bare (steps : ℕ) : g.bare.follow steps id = g.follow steps id := by
  induction steps generalizing id with
  | zero => rfl
  | succ steps ih =>
    simp only [follow, node_bare, Node.bare]
    cases (g.node id).reference with
    | none => rfl
    | some target => exact ih target

@[simp] lemma actual_bare : g.bare.actual id = g.actual id := by simp [actual]

@[simp] lemma actualNode_bare : g.bare.actualNode id = (g.actualNode id).bare := by
  simp [actualNode]

@[simp] lemma isReference_bare : g.bare.isReference id = g.isReference id := by
  simp [isReference, Node.bare]

@[simp] lemma isNullable_bare (dialect : Dialect) :
    g.bare.isNullable dialect id = g.isNullable dialect id := by
  have hwithin (depth : ℕ) (id : SchemaId) :
      g.bare.isNullableWithin dialect depth id = g.isNullableWithin dialect depth id := by
    induction depth generalizing id with
    | zero => rfl
    | succ depth ih =>
      have hdeclares :
          dialect.declaresNull (g.node id).bare = dialect.declaresNull (g.node id) := by
        cases dialect <;> rfl
      simp only [isNullableWithin, node_bare, hdeclares, ih]
      rfl
  rw [isNullable, size_bare, hwithin, isNullable]

@[simp] lemma isActualNullable_bare (dialect : Dialect) :
    g.bare.isActualNullable dialect id = g.isActualNullable dialect id := by
  simp [isActualNullable]

@[simp] lemma actualDiscriminator_bare :
    g.bare.actualDiscriminator id = g.actualDiscriminator id := by
  simp [actualDiscriminator, Node.bare]

@[simp] lemma solidAlternatives_bare : g.bare.solidAlternatives id = g.solidAlternatives id := by
  simp only [solidAlternatives, node_bare, isNullable_bare]
  rfl

@[simp] lemma removeNullability_bare : g.bare.removeNullability id = g.removeNullability id := by
  simp only [removeNullability, node_bare, actualDiscriminator_bare, solidAlternatives_bare]
  rfl

@[simp] lemma isDefinitionType_bare (inlineNamedAny : Bool) :
    g.bare.isDefinitionType inlineNamedAny id = g.isDefinitionType inlineNamedAny id := by
  simp only [isDefinitionType, node_bare]
  rfl

@[simp] lemma resolvable_bare (inlineNamedAny : Bool) :
    g.bare.resolvable inlineNamedAny id = g.resolvable inlineNamedAny id := by
  simp [resolvable]

@[simp] lemma generatesType_bare (inlineNamedAny : Bool) :
    g.bare.generatesType inlineNamedAny id = g.generatesType inlineNamedAny id := by
  simp only [generatesType, resolvable_bare, node_bare]
  rfl

@[simp] lemma definitionKey_bare : g.bare.definitionKey id = g.definitionKey id := by
  simp only [definitionKey, ids, size_bare, node_bare, actual_bare]
  rfl

@[simp] lemma bare_expandAlternatives :
    (g.expandAlternatives id).bare = g.bare.expandAlternatives id := by
  simp only [expandAlternatives, node_bare, solidAlternatives_bare]
  change (if (g.node id).hasNoType && _ then _ else g).bare =
    if (g.node id).hasNoType && _ then _ else g.bare
  split
  · exact g.bare_update id fun _ => rfl
  · rfl

@[simp] lemma bare_compose (wrapper part : SchemaId) :
    (g.compose wrapper part).bare = g.bare.compose wrapper part :=
  g.bare_update wrapper fun _ => rfl

lemma mapValue_bare (property : String) (wrapper : SchemaId) (value : String)
    (subtype : SchemaId) :
    g.bare.mapValue property wrapper value subtype =
      ((g.mapValue property wrapper value subtype).1.bare,
        (g.mapValue property wrapper value subtype).2) := by
  rw [mapValue, node_bare]
  refine Prod.ext (Eq.symm ?_) rfl
  exact g.bare_update subtype fun _ => rfl

lemma composeSubtypes_bare (property : String) (wrapper : SchemaId)
    (mapping : List (String × SchemaId)) :
    composeSubtypes property wrapper mapping g.bare =
      ((composeSubtypes property wrapper mapping g).1.bare,
        (composeSubtypes property wrapper mapping g).2) := by
  induction mapping generalizing g with
  | nil => rfl
  | cons entry rest ih =>
    obtain ⟨value, target⟩ := entry
    simp only [composeSubtypes, actual_bare, ← bare_compose, mapValue_bare, ih]

lemma wrapChoice_bare :
    g.bare.wrapChoice id =
      (g.wrapChoice id).map fun (wrapped, wrapper, remappings) =>
        (wrapped.bare, wrapper, remappings) := by
  simp only [wrapChoice, actualDiscriminator_bare, node_bare, size_bare]
  cases g.actualDiscriminator id with
  | none => rfl
  | some d =>
    have hempty : ({} : Node).bare = {} := rfl
    have hpush := g.bare_push {}
    rw [hempty] at hpush
    simp only [← hpush, composeSubtypes_bare]
    change (if (g.node id).oneOf.isEmpty then _ else _) = _
    split
    · rfl
    · simp

end Graph

namespace Session

def bare (s : Session) : Session := { s with graph := s.graph.bare }

section

variable (s : Session) (id : SchemaId)

@[simp] lemma graph_bare : s.bare.graph = s.graph.bare := rfl

@[simp] lemma types_bare : s.bare.types = s.types := rfl

@[simp] lemma nameOf?_bare : s.bare.nameOf? id = s.nameOf? id := rfl

@[simp] lemma wrapper?_bare : s.bare.wrapper? id = s.wrapper? id := rfl

@[simp] lemma wrapped?_bare : s.bare.wrapped? id = s.wrapped? id := rfl

@[simp] lemma registering_bare : s.bare.registering = s.registering := rfl

@[simp] lemma expanding_bare : s.bare.expanding = s.expanding := rfl

end

lemma prepare_bare (s : Session) (id : SchemaId) :
    s.bare.prepare id = ((s.prepare id).1, (s.prepare id).2.bare) := by
  rw [prepare, prepare, wrapper?_bare]
  cases s.wrapper? id with
  | some wrapper => rfl
  | none =>
    change (if s.prepared.contains id then _ else _) = _
    simp only
    split
    · rfl
    · simp only [bare, ← Graph.bare_expandAlternatives, Graph.wrapChoice_bare]
      cases (s.graph.expandAlternatives id).wrapChoice id <;> rfl

end Session

end SchemaTypes
