import SchemaTypes.Proofs.Graph.Alternatives
import SchemaTypes.Proofs.Graph.Wrapping

/-! Members that are added to an enumeration for its alternatives change nothing about what admits
null, and little about what gets a type. -/

namespace SchemaTypes.Graph

variable {g g₁ g' : Graph} {id : SchemaId} {rank : SchemaId → ℕ}

/-- Schemas without a type got members for their alternatives. -/
def Expands (g g' : Graph) : Prop :=
  ∀ id, ∃ members, (g'.node id).enumeration = (g.node id).enumeration ++ members ∧
    (members ≠ [] → (g.node id).hasNoType ∧ (g.node id).oneOf ≠ []) ∧
    (members.any Member.isNull → none ∈ (g.node id).oneOf)

lemma Expands.refl (g : Graph) : g.Expands g := fun _ => ⟨[], by simp, by simp, by simp⟩

lemma Expands.trans (hgrows : g.Grows g₁) (h : g.Expands g₁) (h' : g₁.Expands g') :
    g.Expands g' := by
  intro id
  obtain ⟨members, heq, hsome, hnull⟩ := h id
  obtain ⟨members', heq', hsome', hnull'⟩ := h' id
  rw [Node.hasNoType, (hgrows id).types, (hgrows id).oneOf] at hsome'
  rw [(hgrows id).oneOf] at hnull'
  refine ⟨members ++ members', by rw [heq', heq, List.append_assoc], fun hne => ?_, fun hany => ?_⟩
  · by_cases hmembers : members = []
    · refine hsome' fun hmembers' => hne ?_
      rw [hmembers, hmembers', List.append_nil]
    · exact hsome hmembers
  · rw [List.any_append, Bool.or_eq_true] at hany
    exact hany.elim hnull hnull'

lemma expandAlternatives_of_ne {other : SchemaId} (h : other ≠ id) :
    (g.expandAlternatives id).node other = g.node other := by
  rcases g.expandAlternatives_cases id with heq | ⟨_, _, _, heq⟩ <;> rw [heq]
  rw [update, node_set_of_ne _ h]

lemma expandAlternatives_of_oneOf (h : (g.node id).oneOf = []) :
    g.expandAlternatives id = g := by
  simp [expandAlternatives, solidAlternatives_of_oneOf h]

lemma expands_expandAlternatives (g : Graph) (id : SchemaId) :
    g.Expands (g.expandAlternatives id) := by
  intro other
  by_cases hother : other = id
  case neg => exact ⟨[], by simp [expandAlternatives_of_ne hother], by simp, by simp⟩
  subst hother
  rcases g.expandAlternatives_cases other with heq | ⟨hno, hsolid, hlt, heq⟩ <;> rw [heq]
  · exact Expands.refl g other
  · rw [node_update_self hlt]
    refine ⟨_, rfl, fun _ => ⟨hno, oneOf_ne_nil_of_solid hsolid⟩, fun hany => ?_⟩
    obtain ⟨member, hmember, hnull⟩ := List.any_eq_true.mp hany
    obtain ⟨entry, hentry, rfl⟩ := List.mem_map.mp hmember
    cases entry with
    | none => exact hentry
    | some alternative => cases hnull

variable (hgrows : g.Grows g') (hexpands : g.Expands g')

include hgrows hexpands

lemma isNullableWithin_expands {dialect : Dialect} (depth : ℕ) (id : SchemaId) :
    g'.isNullableWithin dialect depth id = g.isNullableWithin dialect depth id := by
  induction depth generalizing id with
  | zero => rfl
  | succ depth ih =>
    obtain ⟨members, heq, hsome, hnull⟩ := hexpands id
    have hdeclares : dialect.declaresNull (g'.node id) = dialect.declaresNull (g.node id) := by
      obtain ⟨_, _, _, _, hnode⟩ := hgrows id
      rw [hnode]
      cases dialect <;> rfl
    rw [Bool.eq_iff_iff, isNullableWithin_succ, isNullableWithin_succ, heq, hdeclares,
      Node.hasType, Node.hasNoType, (hgrows id).types, (hgrows id).oneOf, List.any_append,
      Bool.or_eq_true]
    simp only [ih]
    constructor
    · rintro ((hmember | hmember) | h)
      · exact .inl hmember
      · -- A null among the members stands for one among the alternatives.
        have hne : members ≠ [] := fun h => by simp [h] at hmember
        exact .inr (.inr (.inl ⟨(hsome hne).1, .inl (hnull hmember)⟩))
      · exact .inr h
    · rintro (hmember | h)
      · exact .inl (.inl hmember)
      · exact .inr h

lemma isNullable_expands (hrank : g.Ranked rank) (hsize : g.size ≤ g'.size) (dialect : Dialect)
    (id : SchemaId) : g'.isNullable dialect id = g.isNullable dialect id := by
  have hlt := hrank.rank_lt id
  rw [isNullable, isNullableWithin_expands hgrows hexpands, isNullable]
  exact hrank.isNullableWithin_eq (Nat.lt_of_lt_of_le hlt hsize) hlt

omit hgrows in
lemma isEnumeration_expands (henumeration : (g.node id).isEnumeration = false)
    (hno : (g.node id).hasNoType = false) : (g'.node id).isEnumeration = false := by
  obtain ⟨members, heq, hsome, _⟩ := hexpands id
  have hnone : members = [] := by
    by_contra hne
    rw [(hsome hne).1] at hno
    cases hno
  rwa [Node.isEnumeration, heq, hnone, List.append_nil]

/-- What newly gets a type was anything before and is no more. -/
lemma isAny_of_isDefinitionType {inlineNamedAny : Bool}
    (hno : g.isDefinitionType inlineNamedAny id = false)
    (hyes : g'.isDefinitionType inlineNamedAny id = true) :
    (g.node id).isAny = true ∧ (g'.node id).isAny = false := by
  unfold isDefinitionType at hno hyes
  simp only at hno hyes
  split at hno
  case isTrue hinline =>
    rw [Bool.and_eq_true] at hinline
    split at hyes
    · cases hyes
    · rename_i hinline'
      exact ⟨hinline.1, by simpa [hinline.2] using hinline'⟩
  case isFalse =>
    split at hyes
    · cases hyes
    · -- Else it is not a type by what stays, so that it would have to be one by its members.
      exfalso
      obtain ⟨htuple, hdictionary, harray, hnotype, hobject⟩ :
          (g'.node id).isTuple = (g.node id).isTuple ∧
          (g'.node id).isDictionary = (g.node id).isDictionary ∧
          (g'.node id).isArray = (g.node id).isArray ∧
          (g'.node id).hasNoType = (g.node id).hasNoType ∧
          (g'.node id).isObject = (g.node id).isObject := by
        obtain ⟨_, _, _, _, hnode⟩ := hgrows id
        rw [hnode]
        exact ⟨rfl, rfl, rfl, rfl, rfl⟩
      rw [htuple, hdictionary, harray, hnotype, hobject, Bool.and_eq_true] at hyes
      rw [hyes.1, Bool.true_and, Bool.or_eq_false_iff, Bool.or_eq_false_iff] at hno
      obtain ⟨⟨henumeration, hno₁⟩, hno₂⟩ := hno
      rw [isEnumeration_expands hexpands henumeration hno₁, hno₁, hno₂] at hyes
      exact absurd hyes.2 (by decide)

end SchemaTypes.Graph
