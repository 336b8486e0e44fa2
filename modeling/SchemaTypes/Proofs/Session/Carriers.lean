import SchemaTypes.Proofs.Graph.Following
import SchemaTypes.Proofs.Session.Effects

/-! What keeps the schema behind another one. The carrier of a schema changes only on a cycle of
references, or where a hierarchy writes its first discriminator. -/

namespace SchemaTypes

namespace Graph

variable {g g' : Graph} {id : SchemaId} {rank : SchemaId → ℕ}

lemma removeNullability_of_many (h : ∀ only, g.solidAlternatives id ≠ [only]) :
    g.removeNullability id = id := by
  -- The hypothesis rules out the first case of the match.
  simp only [removeNullability, ite_self]

lemma removeNullability_of_solid (h : 1 < (g.solidAlternatives id).length) :
    g.removeNullability id = id :=
  removeNullability_of_many fun only honly => absurd h (by simp [honly])

/-- Without nullability a schema is the same, unless it is an object whose discriminator is new. -/
lemma removeNullability_kept (hgrows : g.Grows g') (hexpands : g.Expands g') (hrank : g.Ranked rank)
    (hsize : g.size ≤ g'.size)
    (hmembers : (g'.node id).enumeration = (g.node id).enumeration ∨
      1 < (g.solidAlternatives id).length)
    (hdiscriminator : (g.node id).isObject →
      (g'.actualDiscriminator id).isSome = (g.actualDiscriminator id).isSome) :
    g'.removeNullability id = g.removeNullability id := by
  have hsolid := solidAlternatives_expands hgrows hexpands hrank hsize id
  rcases hmembers with hmembers | hmembers
  · have hno : (g'.node id).hasNoType = (g.node id).hasNoType := by
      rw [Node.hasNoType, Node.hasNoType, (hgrows id).types]
    unfold removeNullability Node.isEnumeration
    dsimp only
    rw [hsolid, hmembers, (hgrows id).isObject, hno]
    cases h : (g.node id).isObject with
    | true => rw [hdiscriminator h]
    | false => rfl
  · rw [removeNullability_of_solid hmembers, removeNullability_of_solid (by rwa [hsolid])]

lemma actualDiscriminator_of_reference (h : (g.node id).reference = none) :
    (g.actualDiscriminator id).isSome = (g.node id).discriminator.isSome := by
  rw [actualDiscriminator, actualNode, actual_of_reference h]
  cases (g.node id).discriminator <;> rfl

lemma removeNullability_grown (hgrows : g.Grows g') (hexpands : g.Expands g')
    (hrank : g.Ranked rank)
    (hsize : g.size ≤ g'.size) (hplain : (g.node id).isObject → (g.node id).reference = none) :
    g'.removeNullability id = g.removeNullability id ∨ g'.removeNullability id = id := by
  have hsolid := solidAlternatives_expands hgrows hexpands hrank hsize id
  have henumeration : (g.node id).hasNoType && (g.node id).isEnumeration →
      (g'.node id).hasNoType && (g'.node id).isEnumeration := by
    rw [Bool.and_eq_true, Bool.and_eq_true, Node.hasNoType, Node.hasNoType, (hgrows id).types]
    exact And.imp_right (hgrows id).isEnumeration
  have hobject : (g.node id).isObject && (g.actualDiscriminator id).isSome →
      (g'.node id).isObject && (g'.actualDiscriminator id).isSome := by
    rw [Bool.and_eq_true, Bool.and_eq_true, (hgrows id).isObject]
    rintro ⟨hid, hsome⟩
    have href := hplain hid
    have href' : (g'.node id).reference = none := by rw [(hgrows id).reference, href]
    rw [actualDiscriminator_of_reference href, Option.isSome_iff_ne_none] at hsome
    rw [actualDiscriminator_of_reference href', Option.isSome_iff_ne_none]
    exact ⟨hid, mt (hgrows id).discriminator_eq_none hsome⟩
  unfold removeNullability
  dsimp only
  rw [hsolid]
  split
  · exact .inr rfl
  · rename_i hnoEnumeration
    split
    · exact .inr rfl
    · rename_i hnoObject
      rw [if_neg (mt henumeration hnoEnumeration), if_neg (mt hobject hnoObject)]
      exact .inl rfl

end Graph

namespace Session

variable {env : Environment} {s t : Session} {id : SchemaId} {rank : SchemaId → ℕ}

lemma Run.members_cases (h : Run env s t) (hrank : s.graph.Ranked rank) :
    (t.graph.node id).enumeration = (s.graph.node id).enumeration ∨
      1 < (s.graph.solidAlternatives id).length := by
  induction h with
  | refl => exact .inl rfl
  | @tail t t' hfirst hstep ih =>
    have hrun : Run env s t := hfirst
    rcases ih with ih | ih
    · rcases hstep.prepare_cases with ⟨hgraph, _⟩ | ⟨base, rfl⟩
      · rw [hgraph]
        exact .inl ih
      · rcases t.prepare_members base id with heq | ⟨rfl, _, _, _, hsolid, _⟩
        · exact .inl (heq.trans ih)
        · rw [Graph.solidAlternatives_expands hrun.grows hrun.expands hrank hrun.size_le] at hsolid
          exact .inr hsolid
    · exact .inr ih

/-- A schema without its nullability is another one later, only if it is an object of alternatives
that has become a subtype of a hierarchy in between. -/
lemma Run.removeNullability_cases (h : Run env s t) (hrank : s.graph.Ranked rank)
    (hobject : (s.graph.node id).isObject → (s.graph.node id).reference = none) :
    t.graph.removeNullability id = s.graph.removeNullability id ∨
      (s.graph.node id).oneOf ≠ [] ∧ (s.graph.node id).discriminator = none ∧
        (t.graph.node id).discriminator ≠ none := by
  by_cases hone : (s.graph.node id).oneOf = []
  · rw [Graph.removeNullability_of_oneOf hone,
      Graph.removeNullability_of_oneOf (by rw [(h.grows id).oneOf]; exact hone)]
    exact .inl rfl
  have hown {u : Session} (hu : Run env s u) (hid : (s.graph.node id).isObject) :
      (u.graph.actualDiscriminator id).isSome = (u.graph.node id).discriminator.isSome := by
    refine Graph.actualDiscriminator_of_reference ?_
    rw [(hu.grows id).reference]
    exact hobject hid
  by_cases hgained : (s.graph.node id).discriminator = none ∧
      (t.graph.node id).discriminator ≠ none
  · exact .inr ⟨hone, hgained⟩
  refine .inl (Graph.removeNullability_kept h.grows h.expands hrank h.size_le
    (h.members_cases hrank) fun hid => ?_)
  rw [hown h hid, hown .refl hid]
  cases hs : (s.graph.node id).discriminator with
  | none =>
    have ht : (t.graph.node id).discriminator = none := by
      by_contra hsome
      exact hgained ⟨hs, hsome⟩
    rw [ht]
  | some d =>
    cases ht : (t.graph.node id).discriminator with
    | none =>
      rw [(h.grows id).discriminator_eq_none ht] at hs
      cases hs
    | some d' => rfl

/-- The carrier of a schema is another one later, only if it is on a cycle of references then, or
if the schema is a subtype of a hierarchy then and had no discriminator before. -/
lemma Run.carrier_cases (h : Run env s t) (hrank : s.graph.Ranked rank)
    (hobject : (s.graph.node id).isObject → (s.graph.node id).reference = none)
    (hcarrier : t.graph.carrier id ≠ s.graph.carrier id) :
    t.graph.isReference (t.graph.carrier id) ∨
      (s.graph.node id).discriminator = none ∧ (t.graph.node id).discriminator ≠ none := by
  rcases h.removeNullability_cases hrank hobject with hbare | ⟨_, hgained⟩
  · left
    by_contra hend
    refine hcarrier ?_
    rw [Graph.carrier, Graph.carrier, hbare]
    refine (h.grows.actual_of_end ?_).symm
    rw [Graph.carrier, hbare, Graph.isReference] at hend
    simpa using hend
  · exact .inr hgained

end Session

end SchemaTypes
