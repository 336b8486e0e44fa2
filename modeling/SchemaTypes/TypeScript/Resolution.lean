import SchemaTypes.Session.TypeName
import SchemaTypes.TypeScript.TypeExpr

/-! The type expression for a usage of a schema. Schemas with a type of their own are spelled by
name; lists, dictionaries and unions are spelled out, and a list or dictionary that is reached
again while it is spelled out gets a name. -/

namespace SchemaTypes

/-- Resolves a usage of a schema: whether it admits null there, and a hint for its name. -/
abbrev Resolver := SchemaId → Bool → Option String → SessionM TypeExpr

namespace SessionM

def spellNullable (nullable : Bool) (e : TypeExpr) : SessionM TypeExpr := do
  let null := TypeExpr.nullKeyword (← read).typescript.nullKeyword
  if !nullable || e == .any || e == null then return e else return .join [e, null]

/-- A schema used inside another one, which admits null if the schema does. -/
def resolveMember (resolve : Resolver) (id : SchemaId) : SessionM TypeExpr := do
  resolve id ((← graph).isActualNullable (← dialect) id) none

def resolveMembers (resolve : Resolver) : List SchemaId → SessionM (List TypeExpr)
  | [] => pure []
  | id :: rest => do return (← resolveMember resolve id) :: (← resolveMembers resolve rest)

/-- The different expressions of some usages in the order in which they first came. -/
def resolveDistinct (resolve : Resolver) (found : List TypeExpr) :
    List (SchemaId × Bool) → SessionM (List TypeExpr)
  | [] => pure found
  | (id, nullable) :: rest => do
    let e ← resolve id nullable none
    resolveDistinct resolve (if found.contains e then found else found ++ [e]) rest

/-- The type of all values of a dictionary, if there is one. -/
def dictionaryValue (resolve : Resolver) (id : SchemaId) : SessionM (Option TypeExpr) := do
  let g ← graph
  let node := g.node id
  match node.additional with
  | some additional => return some (← resolveMember resolve additional)
  | none =>
    if node.closed && !node.patterns.isEmpty then
      let dialect ← dialect
      let usages := node.patterns.map fun (_, pattern) => (pattern, g.isNullable dialect pattern)
      match ← resolveDistinct resolve [] usages with
      | [e] => return some e
      | _ => return none
    else return none

def dictionaryKey (resolve : Resolver) (id : SchemaId) : SessionM (Option TypeExpr) := do
  match ((← graph).node id).dictionaryKey with
  | some key => return some (← resolveMember resolve key)
  | none => return none

def spellContainer (resolve : Resolver) (id : SchemaId) : SessionM TypeExpr := do
  let node := (← graph).node id
  if node.isArray then
    match node.items with
    | some (.tuple items) => return .tuple (← resolveMembers resolve items)
    | some (.each item) => return .array (← resolveMember resolve item)
    | none => return .array .any
  else
    let key := (← dictionaryKey resolve id).getD .string
    let value := (← dictionaryValue resolve id).getD .any
    return .dictionary key value

/-- The different alternatives of a union; an alternative that is nothing stands for null. -/
def resolveAlternatives (resolve : Resolver) (found : List TypeExpr) :
    List (Option SchemaId) → SessionM (List TypeExpr)
  | [] => pure found
  | alternative :: rest => do
    let e ←
      match alternative with
      | some id => resolve id false none
      | none => pure .null
    resolveAlternatives resolve (if found.contains e then found else found ++ [e]) rest

def spellUnion (resolve : Resolver) (alternatives : List (Option SchemaId)) :
    SessionM TypeExpr := do
  return .join (← resolveAlternatives resolve [] alternatives)

/-- A list or dictionary by its name if it has one or needs one, else spelled out. -/
def resolveContainer (resolve : Resolver) (id : SchemaId) (hint : Option String) :
    SessionM TypeExpr := do
  let s ← get
  match s.nameOf? id, s.expanding.lookup id with
  | some name, _ => return .ident name
  | none, some outer =>
    return .ident (← typeName id (s.graph.definitionKey id <|> outer <|> hint))
  | none, none =>
    let e ← within (·.beginExpansion id hint) (·.endExpansion id) (spellContainer resolve id)
    match (← get).nameOf? id with
    | some name => return .ident name
    | none => return e

/-- A schema without a name, by its type or by its alternatives. -/
def resolvePlain (resolve : Resolver) (node : Node) : SessionM TypeExpr :=
  match node.primaryType with
  | some .integer => pure .number
  | some .number => pure .number
  | some .boolean => pure .boolean
  | some .string => pure .string
  | some _ => pure .any
  | none =>
    if node.hasType .null then pure .null
    else if !node.oneOf.isEmpty then spellUnion resolve node.oneOf
    else if !node.anyOf.isEmpty then spellUnion resolve (node.anyOf.map some)
    else pure .any

def resolveBare (resolve : Resolver) (id : SchemaId) (hint : Option String) :
    SessionM TypeExpr := do
  let s ← get
  let inlineNamedAny := (← read).resolver.inlineNamedAny
  let usage := s.graph.resolvable inlineNamedAny id
  let actual := s.graph.actual usage
  let node := s.graph.node actual
  match s.wrapper? actual with
  | some wrapper => return .ident (← typeName wrapper hint)
  | none =>
    if node.isAny && !s.graph.isReference usage then return .any
    else if s.graph.generatesType inlineNamedAny id || node.isEnumeration then
      return .ident (← typeName id hint)
    else if node.isArray || node.isDictionary then resolveContainer resolve actual hint
    else resolvePlain resolve node

/-- The expression for a usage, where usages nest at most `depth` deep. -/
def resolveWithin : Nat → Resolver
  | 0, _, _, _ => throw .exhausted
  | depth + 1, id, nullable, hint => do
    spellNullable nullable (← resolveBare (resolveWithin depth) id hint)

/-- Usages nest inside as many containers as there are, with a chain of unions in each. -/
def resolve : Resolver := fun id nullable hint => do
  let bound := (← graph).size + 2
  resolveWithin (bound * bound) id nullable hint

/-- The body of a named list or dictionary, in which it is spelled by its name. -/
def aliasTarget (id : SchemaId) : SessionM TypeExpr :=
  within (·.beginExpansion id none) (·.endExpansion id) (spellContainer resolve id)

end SessionM

end SchemaTypes
