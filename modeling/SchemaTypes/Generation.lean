import SchemaTypes.TypeScript.Emission

/-! From a document to a file of type declarations. -/

namespace SchemaTypes

def Document.register (d : Document) : SessionM Unit := do
  SessionM.register d.definitions
  if (← SessionM.isDefinitionType d.root) && !((← SessionM.graph).node d.root).isAny then
    discard (SessionM.typeName d.root (some (← read).typescript.rootName))

structure GeneratedFile where
  path : String
  content : String

def Document.emit (d : Document) : SessionM (List GeneratedFile) := do
  d.register
  return [⟨"types.ts", ← SessionM.emit⟩]

def Document.run {α : Type} (d : Document) (settings : Settings) (action : SessionM α) :
    Except Failure α × Session :=
  action (.ofSettings settings) { graph := d.graph }

end SchemaTypes
