import SchemaTypes.Proofs.Graph.Annotations
import SchemaTypes.Proofs.Schema.Congruence

/-! Schemas without their annotations are lowered to the graph without its annotations. -/

namespace SchemaTypes

namespace Keywords

variable {α β : Type}

/-- The keywords without their own annotations. -/
def bare (k : Keywords α) : Keywords α :=
  { k with format := none, description := none, extra := withoutAnnotations k.extra }

lemma traverse_bare {m : Type → Type} [Monad m] [LawfulMonad m] (f : Place → α → m β)
    (k : Keywords α) : k.bare.traverse f = bare <$> k.traverse f := by
  simp only [traverse, map_eq_pure_bind, bind_assoc, pure_bind]
  rfl

end Keywords

namespace Schema

/-- The schema without annotations at any depth. -/
def bare : Schema → Schema := fold .ref fun k => .inline (k.map (·.2)).bare

lemma bare_inline (k : Keywords Schema) : (inline k).bare = .inline (k.map bare).bare := by
  rw [bare, fold_inline, Keywords.map_map]

lemma declared_bare (s : Schema) (path : Path) : s.bare.declared path = s.declared path := by
  induction s using induct generalizing path with
  | ref target => rfl
  | inline k ih =>
    have hchildren : (k.map bare).bare.children = (k.map bare).children := rfl
    rw [bare_inline, declared_inline, declared_inline, hchildren, Keywords.children_map,
      List.flatMap_map]
    refine List.flatMap_congr fun ⟨place, s⟩ hmem => ?_
    simp only [ih place s hmem]

end Schema

namespace Keywords

/-- The keywords of a document without annotations at any depth. -/
def unannotated (k : Keywords Schema) : Keywords Schema := (k.map Schema.bare).bare

end Keywords

namespace Scope

variable (scope : Scope)

lemma ofKeywords_unannotated (root : Keywords Schema) :
    ofKeywords root.unannotated = ofKeywords root := by
  have hdeclared := (Schema.inline root).declared_bare []
  rw [Schema.bare_inline] at hdeclared
  have hplaces : root.unannotated.definitionPlaces =
      root.definitionPlaces.map fun child => (child.1, child.2.bare) :=
    root.definitionPlaces_map Schema.bare
  simp only [ofKeywords, hplaces, List.filterMap_map]
  rw [Keywords.unannotated, hdeclared]
  congr 2
  funext child
  obtain ⟨place, s⟩ := child
  cases place <;> simp only [Function.comp_apply]

lemma implicitMapping_bare (alternatives : List (Option Schema)) :
    scope.implicitMapping (alternatives.map (Option.map Schema.bare)) =
      scope.implicitMapping alternatives := by
  rw [implicitMapping, List.foldlM_map]
  refine congrArg (List.foldlM · [] alternatives) ?_
  funext mapping alternative
  rcases alternative with _ | target | k
  · rfl
  · rfl
  · rw [Option.map_some, Schema.bare_inline]

lemma lowerDiscriminator_bare (alternatives : List (Option Schema))
    (form : Option DiscriminatorForm) :
    scope.lowerDiscriminator (alternatives.map (Option.map Schema.bare)) form =
      scope.lowerDiscriminator alternatives form := by
  rcases form with _ | property | ⟨property, mapping⟩
  · rfl
  · rfl
  · simp only [lowerDiscriminator, implicitMapping_bare]

end Scope

lemma Node.bare_ofKeywords (k : Keywords SchemaId) (d : Option (Discriminator SchemaId))
    (isProperty : Bool) : (ofKeywords k d isProperty).bare = ofKeywords k.bare d isProperty := by
  have hextensions : withoutAnnotations (k.extra.filter fun entry => isExtension entry.1) =
      (withoutAnnotations k.extra).filter fun entry => isExtension entry.1 := by
    rw [withoutAnnotations, withoutAnnotations, List.filter_comm]
  simp only [ofKeywords, bare, Keywords.bare, ← hextensions]
  rfl

namespace Lowering

variable {γ δ : Type}

/-- On a graph without annotations the second action does what the first one does with them, and
what it returns is freed of them. -/
def Erases (free : γ → γ) (x y : Lowering γ) : Prop :=
  ∀ g : Graph, y g.bare = (x g).map fun result => (free result.1, result.2.bare)

namespace Erases

variable {free : γ → γ} {free' : δ → δ} {x y : Lowering γ} {f f' : γ → Lowering δ}

lemma pure {c : γ} : Erases free (pure c) (pure (free c)) := fun _ => rfl

lemma bind (hx : Erases free x y) (hf : ∀ c, Erases free' (f c) (f' (free c))) :
    Erases free' (x >>= f) (y >>= f') := by
  intro g
  change (y g.bare >>= fun result => f' result.1 result.2) =
    (x g >>= fun result => f result.1 result.2).map _
  rw [hx g]
  cases x g with
  | error e => rfl
  | ok result => exact hf result.1 result.2

lemma map (free : γ → γ) (h : Erases (fun c => c) x y) : Erases free x (free <$> y) := by
  intro g
  change (y g.bare >>= fun result => Except.ok (free result.1, result.2)) = _
  rw [h g]
  cases x g <;> rfl

lemma lift (x : Except ReferenceError γ) : Erases (fun c => c) (liftM x) (liftM x) := by
  intro g
  cases x <;> rfl

lemma isCongruence : IsCongruence Lowering fun γ => @Erases γ fun c => c :=
  ⟨fun _ => pure, fun hx hf => hx.bind hf⟩

end Erases

lemma add_erases (node : Node) : Erases (fun id => id) (add node) (add node.bare) := by
  intro g
  change Except.ok (g.bare.size, g.bare.push node.bare) = Except.ok (g.size, (g.push node).bare)
  rw [Graph.size_bare, Graph.bare_push]

lemma set_erases (id : SchemaId) (node : Node) :
    Erases (fun u => u) (modify fun g => g.set id node) (modify fun g => g.set id node.bare) := by
  intro g
  change Except.ok (PUnit.unit, g.bare.set id node.bare) =
    Except.ok (PUnit.unit, (g.set id node).bare)
  rw [Graph.bare_set]

lemma fill_erases (scope : Scope) (path : Path) {lower lower' : Lowering Node}
    (h : Erases Node.bare lower lower') :
    Erases (fun id => id) (fill scope path lower) (fill scope path lower') := by
  unfold fill
  split
  · exact h.bind fun node => (set_erases _ node).bind fun _ => .pure
  · exact fun g => rfl

lemma node_erases (scope : Scope) (s : Schema) (path : Path) (isProperty : Bool) :
    Erases Node.bare (node scope s path isProperty) (node scope s.bare path isProperty) := by
  induction s using Schema.induct generalizing path isProperty with
  | ref target =>
    exact (Erases.lift (scope.resolve target)).bind fun id => .pure
  | inline k ih =>
    have hchild : ∀ place s, (place, s) ∈ k.children →
        Erases (fun id => id) (child scope path place s) (child scope path place s.bare) := by
      intro place s hmem
      have hnode := ih place s hmem (path ++ [place])
      cases hplace : place.isDefinition with
      | true =>
        rw [child_definition hplace, child_definition hplace]
        exact fill_erases scope _ (hnode _)
      | false =>
        rw [child_other hplace, child_other hplace]
        exact (hnode _).bind fun node => add_erases node
    have hids : Erases Keywords.bare (k.traverse (child scope path))
        ((k.map Schema.bare).bare.traverse (child scope path)) := by
      rw [Keywords.traverse_bare, Keywords.traverse_map]
      exact (Erases.isCongruence.traverse hchild).map Keywords.bare
    rw [Schema.bare_inline, node_inline, node_inline]
    refine hids.bind fun ids => ?_
    have hdiscriminator : scope.lowerDiscriminator (k.map Schema.bare).bare.oneOf
        (k.map Schema.bare).bare.discriminator = scope.lowerDiscriminator k.oneOf k.discriminator :=
      scope.lowerDiscriminator_bare k.oneOf k.discriminator
    rw [hdiscriminator]
    refine (Erases.lift _).bind fun d => ?_
    rw [← Node.bare_ofKeywords]
    exact .pure

end Lowering

namespace Document

def bare (d : Document) : Document := { d with graph := d.graph.bare }

/-- Without annotations a document is lowered to the same graph without them, or fails alike. -/
lemma ofKeywords_unannotated (root : Keywords Schema) :
    ofKeywords root.unannotated = (ofKeywords root).map bare := by
  have hreserved (n : ℕ) : (⟨Array.replicate n {}⟩ : Graph).bare = ⟨Array.replicate n {}⟩ := by
    have hempty : ({} : Node).bare = {} := rfl
    simp [Graph.bare, hempty]
  have hlower := Lowering.node_erases (Scope.ofKeywords root) (.inline root) [] false
    ⟨Array.replicate (Scope.ofKeywords root).pointers.length {}⟩
  rw [hreserved, Schema.bare_inline] at hlower
  rw [ofKeywords, ofKeywords, Scope.ofKeywords_unannotated]
  simp only [StateT.run]
  rw [Keywords.unannotated, hlower]
  cases Lowering.node (Scope.ofKeywords root) (.inline root) [] false
      ⟨Array.replicate (Scope.ofKeywords root).pointers.length {}⟩ with
  | error e => rfl
  | ok result =>
    change Except.ok (Document.mk _ _) = Except.ok (bare (Document.mk _ _))
    simp [bare]

end Document

end SchemaTypes
