import SchemaTypes.Proofs.Session.Nested
import SchemaTypes.Proofs.TypeScript.Literals
import SchemaTypes.Proofs.TypeScript.Rendering

/-! Which nested definitions are prepared. Those of the root and of every schema that is declared
are, before its declaration; those of other schemas need not be. -/

namespace SchemaTypes

open Session SessionM

lemma SessionM.renders_covered (env : Environment) (g : Graph) :
    Renders env fun s => Run env { graph := g } s ∧ s.registering = [] ∧
      s.Covered g env.resolver.inlineNamedAny := by
  constructor
  case typeName =>
    rintro s id hint name t ⟨hrun, hregistering, hs⟩ h
    obtain ⟨hnames, hregistering', ht⟩ := typeName_covers s id hint name t hrun hs h
    exact ⟨hrun.trans hnames, hregistering'.trans hregistering, ht⟩
  case beginExpansion =>
    rintro s id hint ⟨hrun, hregistering, hs⟩
    exact ⟨hrun.tail (.beginExpansion id hint), hregistering,
      hs.mono rfl (List.Subset.refl _) (List.Subset.refl _)⟩
  case endExpansion =>
    rintro s id ⟨hrun, hregistering, hs⟩
    exact ⟨hrun.tail (.endExpansion id), hregistering,
      hs.mono rfl (List.Subset.refl _) (List.Subset.refl _)⟩

namespace Document

variable {d : Document} {env : Environment} {s : Session}

lemma nameRoot_keeps {J : Session → Prop} (h : Renders env J) (d : Document) :
    Keeps env J (do
      if (← isDefinitionType d.root) && !((← SessionM.graph).node d.root).isAny then
        discard (typeName d.root (some (← read).typescript.rootName))) := by
  refine .bind (.still fun _ => rfl) fun _ => .bind .graph fun _ => ?_
  split
  · refine .bind .read fun _ => ?_
    rw [discard_eq_bind]
    exact .bind (h.named _ _) fun _ => .pure _
  · exact .pure _

def nestedChoiceText : String :=
  "\x7b\"$defs\":\x7b\"B\":\x7b\"$defs\":\x7b\"S\":\x7b" ++
    "\"discriminator\":\x7b\"propertyName\":\"k\"\x7d,\"oneOf\":[\x7b\"$ref\":\"#/$defs/D\"\x7d]" ++
    "\x7d\x7d\x7d,\"D\":\x7b\x7d\x7d\x7d"

lemma nestedChoice_emits :
    ∃ d, ofJson nestedChoiceText = .ok d ∧
      (∃ files, (d.emit (.ofSettings {}) { graph := d.graph }).1 = .ok files ∧ True) ∧
      (d.emit (.ofSettings {}) { graph := d.graph }).2.nameOf? 1 = some "B" ∧
      (d.graph.node 1).definitions = [("S", 2)] ∧ d.graph.actual 2 = 2 ∧
      (d.graph.node 2).reference = none ∧ d.graph.isDefinitionType false 2 ∧
      (d.graph.node 2).discriminator ≠ none ∧ (d.graph.node 2).oneOf ≠ [] := by
  decide +kernel

/-- A choice with a discriminator below a list without a name. -/
def unnamedOwnerText : String :=
  "\x7b\"$defs\":\x7b\"L\":\x7b\"type\":\"array\",\"$defs\":\x7b\"S\":\x7b" ++
    "\"discriminator\":\x7b\"propertyName\":\"k\"\x7d,\"oneOf\":[\x7b\"$ref\":\"#/$defs/D\"\x7d]" ++
    "\x7d\x7d\x7d,\"D\":\x7b\x7d\x7d," ++
    "\"properties\":\x7b\"s\":\x7b\"$ref\":\"#/$defs/L/$defs/S\"\x7d\x7d\x7d"

/-- A list of itself that has a discriminator and alternatives. -/
def recursiveListText : String :=
  "\x7b\"$defs\":\x7b\"L\":\x7b\"type\":\"array\",\"items\":\x7b\"$ref\":\"#/$defs/L\"\x7d," ++
    "\"discriminator\":\x7b\"propertyName\":\"k\"\x7d," ++
    "\"oneOf\":[\x7b\"$ref\":\"#/$defs/D\"\x7d,\x7b\"$ref\":\"#/$defs/D\"\x7d]\x7d,\"D\":\x7b\x7d\x7d," ++
    "\"properties\":\x7b\"l\":\x7b\"$ref\":\"#/$defs/L\"\x7d\x7d\x7d"

/-- A choice with a discriminator that is named in the end, without preparation. -/
def NamedUnprepared (d : Document) (owner : SchemaId) (id : SchemaId) (name : String) : Prop :=
  let result := d.emit (.ofSettings {}) { graph := d.graph }
  (∃ files, result.1 = .ok files ∧ True) ∧
    (name, id) ∈ (d.graph.node owner).definitions ∧ d.graph.actual id = id ∧
    (d.graph.node id).discriminator ≠ none ∧ (d.graph.node id).oneOf ≠ [] ∧
    result.2.nameOf? id = some name ∧ id ∉ result.2.prepared ∧ result.2.wrapper? id = none

instance (d : Document) (owner id : SchemaId) (name : String) :
    Decidable (d.NamedUnprepared owner id name) :=
  inferInstanceAs (Decidable (_ ∧ _ ∧ _ ∧ _ ∧ _ ∧ _ ∧ _ ∧ _))

end Document

end SchemaTypes
