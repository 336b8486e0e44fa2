import SchemaTypes.Proofs.Session.Steps
import SchemaTypes.Proofs.TypeScript.Plain
import SchemaTypes.TypeScript.Emission

/-! Actions that read the graph and the settings, and besides only ask how usages are spelled. What
holds of every answer then holds of the whole action. -/

namespace SchemaTypes.SessionM

/-- An action for each of several resolvers: the same one, but for whom it asks. -/
inductive Asks {ι : Type} (resolver : ι → Resolver) : {α : Type} → (ι → SessionM α) → Prop
  | usage (id : SchemaId) (nullable : Bool) (hint : Option String) :
      Asks resolver fun i => resolver i id nullable hint
  | pure {α : Type} (a : α) : Asks resolver fun _ => (pure a : SessionM α)
  | graph : Asks resolver fun _ => SessionM.graph
  | read : Asks resolver fun _ => (MonadReader.read : SessionM Environment)
  | bind {α β : Type} {x : ι → SessionM α} {f : α → ι → SessionM β} (hx : Asks resolver x)
      (hf : ∀ a, Asks resolver (f a)) : Asks resolver fun i => x i >>= fun a => f a i

namespace Asks

variable {ι : Type} {resolver : ι → Resolver}

lemma dialect : Asks resolver fun _ => SessionM.dialect := .bind .read fun _ => .pure _

lemma spellNullable (nullable : Bool) (e : TypeExpr) :
    Asks resolver fun _ => SessionM.spellNullable nullable e := by
  refine .bind .read fun env => ?_
  simp only
  split
  · exact .pure _
  · exact .pure _

lemma resolveMember (id : SchemaId) :
    Asks resolver fun i => SessionM.resolveMember (resolver i) id :=
  .bind .graph fun _ => .bind dialect fun _ => .usage _ _ _

lemma resolveMembers (ids : List SchemaId) :
    Asks resolver fun i => SessionM.resolveMembers (resolver i) ids := by
  induction ids with
  | nil => exact .pure _
  | cons id rest ih => exact .bind (resolveMember id) fun _ => .bind ih fun _ => .pure _

lemma resolveDistinct (usages : List (SchemaId × Bool)) (found : List TypeExpr) :
    Asks resolver fun i => SessionM.resolveDistinct (resolver i) found usages := by
  induction usages generalizing found with
  | nil => exact .pure _
  | cons usage rest ih => exact .bind (.usage _ _ _) fun _ => ih _

lemma dictionaryValue (id : SchemaId) :
    Asks resolver fun i => SessionM.dictionaryValue (resolver i) id := by
  refine .bind .graph fun g => ?_
  simp only
  cases (g.node id).additional with
  | some additional => exact .bind (resolveMember additional) fun _ => .pure _
  | none =>
    cases (g.node id).closed && !(g.node id).patterns.isEmpty with
    | true =>
      refine .bind dialect fun _ => .bind (resolveDistinct _ _) fun found => ?_
      split
      · exact .pure _
      · exact .pure _
    | false => exact .pure _

lemma dictionaryKey (id : SchemaId) :
    Asks resolver fun i => SessionM.dictionaryKey (resolver i) id := by
  refine .bind .graph fun g => ?_
  cases (g.node id).dictionaryKey with
  | some key => exact .bind (resolveMember key) fun _ => .pure _
  | none => exact .pure _

lemma spellContainer (id : SchemaId) :
    Asks resolver fun i => SessionM.spellContainer (resolver i) id := by
  refine .bind .graph fun g => ?_
  simp only
  cases (g.node id).isArray with
  | true =>
    cases (g.node id).items with
    | none => exact .pure _
    | some items =>
      cases items with
      | tuple items => exact .bind (resolveMembers items) fun _ => .pure _
      | each item => exact .bind (resolveMember item) fun _ => .pure _
  | false => exact .bind (dictionaryKey id) fun _ => .bind (dictionaryValue id) fun _ => .pure _

lemma spellUnion (alternatives : List (Option SchemaId)) :
    Asks resolver fun i => SessionM.spellUnion (resolver i) alternatives := by
  refine .bind (f := fun _ _ => _) ?_ fun _ => .pure _
  generalize [] = found
  induction alternatives generalizing found with
  | nil => exact .pure _
  | cons alternative rest ih =>
    cases alternative with
    | none => exact .bind (.pure _) fun _ => ih _
    | some id => exact .bind (.usage id false none) fun _ => ih _

lemma resolvePlain (node : Node) :
    Asks resolver fun i => SessionM.resolvePlain (resolver i) node := by
  cases node.plain with
  | keyword _ h =>
    simp only [h]
    exact .pure _
  | union alternatives _ _ _ h =>
    simp only [h]
    exact spellUnion alternatives

section

variable (hresolver : ∀ i, resolver i = SessionM.resolve)

include hresolver

lemma resolve (id : SchemaId) (nullable : Bool) (hint : Option String) :
    Asks resolver fun _ => SessionM.resolve id nullable hint := by
  have husage : Asks resolver fun i => resolver i id nullable hint := .usage id nullable hint
  simpa only [hresolver] using husage

lemma resolveVariants (ids : List SchemaId) :
    Asks resolver fun _ => SessionM.resolveVariants ids := by
  induction ids with
  | nil => exact .pure _
  | cons id rest ih =>
    exact .bind (resolve hresolver id false none) fun _ => .bind ih fun _ => .pure _

lemma declareChoice (choice : Choice) : Asks resolver fun _ => SessionM.declareChoice choice :=
  .bind (.bind .graph fun _ => resolveVariants hresolver _) fun _ => .bind .graph fun _ => .pure _

lemma declareField (discriminator : Option (Discriminator SchemaId)) (required : List String)
    (key : String) (id : SchemaId) :
    Asks resolver fun _ => SessionM.declareField discriminator required key id := by
  refine .bind ?_ fun _ => .bind .graph fun _ => .pure _
  unfold fieldType
  cases discriminator.filter (·.property == key) with
  | some d => exact .pure _
  | none =>
    exact .bind .graph fun _ => .bind dialect fun _ =>
      .bind (resolve hresolver _ _ _) fun _ => .pure _

lemma declareFields (discriminator : Option (Discriminator SchemaId)) (required : List String)
    (properties : List (String × SchemaId)) :
    Asks resolver fun _ => SessionM.declareFields discriminator required properties := by
  induction properties with
  | nil => exact .pure _
  | cons entry rest ih =>
    exact .bind (declareField hresolver discriminator required entry.1 entry.2) fun _ =>
      .bind ih fun _ => .pure _

end

end Asks

end SchemaTypes.SessionM
