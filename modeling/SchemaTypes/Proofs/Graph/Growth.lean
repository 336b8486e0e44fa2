import SchemaTypes.Proofs.Graph.Nodes
import SchemaTypes.Session.Preparation

/-! How a graph changes when definitions are prepared. A node keeps what it refers to; it can only
get further parts and members, and a discriminator. Numbers without a node read as the empty node,
so that a new node is one that has grown, too. -/

namespace SchemaTypes

namespace Node

/-- The second node is the first one with parts and members added. -/
def Grows (node node' : Node) : Prop :=
  ∃ parts members d, (node.discriminator.isSome → d.isSome) ∧
    node' = { node with
      allOf := node.allOf ++ parts
      enumeration := node.enumeration ++ members
      discriminator := d }

namespace Grows

variable {node node₁ node' : Node}

lemma refl (node : Node) : Grows node node :=
  ⟨[], [], node.discriminator, id, by simp⟩

lemma addParts (node : Node) (parts : List SchemaId) :
    Grows node { node with allOf := node.allOf ++ parts } :=
  ⟨parts, [], node.discriminator, id, by simp⟩

lemma addMembers (node : Node) (members : List Member) :
    Grows node { node with enumeration := node.enumeration ++ members } :=
  ⟨[], members, node.discriminator, id, by simp⟩

lemma setDiscriminator (node : Node) (d : Discriminator SchemaId) :
    Grows node { node with discriminator := some d } :=
  ⟨[], [], some d, fun _ => rfl, by simp⟩

lemma trans (h : Grows node node₁) (h' : Grows node₁ node') : Grows node node' := by
  obtain ⟨parts, members, d, hd, rfl⟩ := h
  obtain ⟨parts', members', d', hd', rfl⟩ := h'
  exact ⟨parts ++ parts', members ++ members', d', fun h => hd' (hd h), by simp⟩

lemma reference (h : Grows node node') : node'.reference = node.reference := by
  obtain ⟨_, _, _, _, rfl⟩ := h
  rfl

lemma oneOf (h : Grows node node') : node'.oneOf = node.oneOf := by
  obtain ⟨_, _, _, _, rfl⟩ := h
  rfl

lemma anyOf (h : Grows node node') : node'.anyOf = node.anyOf := by
  obtain ⟨_, _, _, _, rfl⟩ := h
  rfl

lemma types (h : Grows node node') : node'.types = node.types := by
  obtain ⟨_, _, _, _, rfl⟩ := h
  rfl

lemma definitions (h : Grows node node') : node'.definitions = node.definitions := by
  obtain ⟨_, _, _, _, rfl⟩ := h
  rfl

lemma properties (h : Grows node node') : node'.properties = node.properties := by
  obtain ⟨_, _, _, _, rfl⟩ := h
  rfl

lemma required (h : Grows node node') : node'.required = node.required := by
  obtain ⟨_, _, _, _, rfl⟩ := h
  rfl

lemma allOf_subset (h : Grows node node') : node.allOf ⊆ node'.allOf := by
  obtain ⟨_, _, _, _, rfl⟩ := h
  exact List.subset_append_left _ _

lemma isArray (h : Grows node node') : node'.isArray = node.isArray := by
  obtain ⟨_, _, _, _, rfl⟩ := h
  rfl

lemma isDictionary (h : Grows node node') : node'.isDictionary = node.isDictionary := by
  obtain ⟨_, _, _, _, rfl⟩ := h
  rfl

lemma isObject (h : Grows node node') : node'.isObject = node.isObject := by
  obtain ⟨_, _, _, _, rfl⟩ := h
  rfl

lemma discriminator_eq_none (h : Grows node node') (hnone : node'.discriminator = none) :
    node.discriminator = none := by
  obtain ⟨_, _, d, hd, rfl⟩ := h
  rw [← Option.not_isSome_iff_eq_none]
  intro hsome
  have hd := hd hsome
  rw [show d = none from hnone] at hd
  cases hd

lemma isEnumeration (h : Grows node node') (hnode : node.isEnumeration) :
    node'.isEnumeration := by
  obtain ⟨_, members, _, _, rfl⟩ := h
  unfold Node.isEnumeration at hnode ⊢
  cases hmembers : node.enumeration with
  | nil => simp [hmembers] at hnode
  | cons member rest => rfl

lemma isAny (hgrows : Grows node node') (hany : node'.isAny) : node.isAny := by
  have h := hgrows
  obtain ⟨parts, members, d, hd, rfl⟩ := h
  unfold Node.isAny at hany ⊢
  simp only [Bool.and_eq_true, List.isEmpty_iff, List.append_eq_nil_iff] at hany ⊢
  obtain ⟨⟨⟨⟨⟨⟨⟨⟨⟨⟨htype, href⟩, hallOf, _⟩, hanyOf⟩, honeOf⟩, hproperties⟩, hpatterns⟩, hclosed⟩,
    hadditional⟩, henumeration, _⟩, hnone⟩ := hany
  have hdiscriminator : node.discriminator.isNone := by
    rw [Option.isNone_iff_eq_none] at hnone ⊢
    exact hgrows.discriminator_eq_none hnone
  exact ⟨⟨⟨⟨⟨⟨⟨⟨⟨⟨htype, href⟩, hallOf⟩, hanyOf⟩, honeOf⟩, hproperties⟩, hpatterns⟩, hclosed⟩,
    hadditional⟩, henumeration⟩, hdiscriminator⟩

lemma eq_of_kept (h : Grows node node') (hparts : node'.allOf = node.allOf)
    (hmembers : node'.enumeration = node.enumeration)
    (hdiscriminator : node'.discriminator = node.discriminator) : node' = node := by
  obtain ⟨parts, members, d, _, rfl⟩ := h
  simp only at hparts hmembers hdiscriminator
  rw [hparts, hmembers, hdiscriminator]

end Grows

/-- The members that a schema gets for its alternatives. -/
def alternativeMembers (node : Node) : List Member :=
  node.oneOf.map fun
    | some alternative => .schema alternative
    | none => .literal .null

end Node

namespace Graph

/-- Every node of the first graph has grown into the one with its number. -/
def Grows (g g' : Graph) : Prop := ∀ id, (g.node id).Grows (g'.node id)

variable {g g₁ g' : Graph}

lemma Grows.refl (g : Graph) : Grows g g := fun id => .refl (g.node id)

lemma Grows.trans (h : Grows g g₁) (h' : Grows g₁ g') : Grows g g' :=
  fun id => (h id).trans (h' id)

lemma Grows.plain_object (h : Grows g g') {id : SchemaId}
    (hplain : (g.node id).isObject → (g.node id).reference = none)
    (hobject : (g'.node id).isObject) : (g'.node id).reference = none := by
  rw [(h id).isObject] at hobject
  rw [(h id).reference]
  exact hplain hobject

lemma grows_push (g : Graph) : Grows g (g.push {}) := by
  intro id
  rcases Nat.lt_trichotomy id g.size with h | rfl | h
  · rw [node_push_of_lt _ h]
    exact .refl _
  · rw [node_push_size, node_of_size_le (Nat.le_refl _)]
    exact .refl _
  · rw [node_of_size_le (Nat.le_of_lt h), node_of_size_le (by rw [size_push]; omega)]
    exact .refl _

lemma grows_update (g : Graph) (id : SchemaId) {f : Node → Node}
    (hf : ∀ node : Node, node.Grows (f node)) : Grows g (g.update id f) := by
  intro other
  by_cases hother : other = id
  · subst hother
    by_cases hlt : other < g.size
    · rw [update, node_set_self _ hlt]
      exact hf _
    · rw [node_of_size_le (Nat.le_of_not_lt hlt), node_of_size_le]
      · exact .refl _
      · rw [size_update]
        exact Nat.le_of_not_lt hlt
  · rw [update, node_set_of_ne _ hother]
    exact .refl _

lemma solidAlternatives_of_oneOf {id : SchemaId} (h : (g.node id).oneOf = []) :
    g.solidAlternatives id = [] := by
  simp [solidAlternatives, Node.alternatives, h]

lemma oneOf_ne_nil_of_solid {id : SchemaId} {n : ℕ} (h : n < (g.solidAlternatives id).length) :
    (g.node id).oneOf ≠ [] := by
  intro hnil
  rw [solidAlternatives_of_oneOf hnil] at h
  exact absurd h (Nat.not_lt_zero n)

lemma expandAlternatives_cases (g : Graph) (id : SchemaId) :
    g.expandAlternatives id = g ∨
      (g.node id).hasNoType ∧ 1 < (g.solidAlternatives id).length ∧ id < g.size ∧
        g.expandAlternatives id = g.update id fun node =>
          { node with enumeration := node.enumeration ++ node.alternativeMembers } := by
  unfold expandAlternatives
  split
  case isFalse => exact .inl rfl
  case isTrue hexpand =>
    rw [Bool.and_eq_true, decide_eq_true_eq] at hexpand
    have hone := oneOf_ne_nil_of_solid hexpand.2
    exact .inr ⟨hexpand.1, hexpand.2, lt_size_of_ne Node.oneOf hone, rfl⟩

lemma grows_expandAlternatives (g : Graph) (id : SchemaId) :
    Grows g (g.expandAlternatives id) := by
  rcases g.expandAlternatives_cases id with heq | ⟨_, _, _, heq⟩ <;> rw [heq]
  · exact .refl g
  · exact grows_update g id fun node => .addMembers node _

lemma grows_compose (wrapper part : SchemaId) (g : Graph) : Grows g (g.compose wrapper part) := by
  apply grows_update
  intro node
  exact .addParts node [part]

lemma grows_mapValue (property : String) (wrapper : SchemaId) (value : String)
    (subtype : SchemaId) (g : Graph) :
    Grows g (g.mapValue property wrapper value subtype).1 := by
  apply grows_update
  intro node
  exact .setDiscriminator node _

lemma grows_composeSubtypes (property : String) (wrapper : SchemaId)
    (mapping : List (String × SchemaId)) (g : Graph) :
    Grows g (g.composeSubtypes property wrapper mapping).1 := by
  induction mapping generalizing g with
  | nil => exact .refl g
  | cons entry rest ih =>
    obtain ⟨value, target⟩ := entry
    exact ((grows_compose _ _ g).trans (grows_mapValue _ _ _ _ _)).trans (ih _)

lemma wrapChoice_eq_some {id wrapper : SchemaId} {remappings : List Remapping}
    (h : g.wrapChoice id = some (g', wrapper, remappings)) :
    wrapper = g.size ∧ (g.node id).oneOf ≠ [] ∧ ∃ d, g.actualDiscriminator id = some d ∧
      g' = (composeSubtypes d.property g.size d.mapping (g.push {})).1.compose g.size id := by
  unfold wrapChoice at h
  split at h
  case h_1 => cases h
  case h_2 d hd =>
    split at h
    case isTrue => cases h
    case isFalse hone =>
      cases h
      exact ⟨rfl, by simpa using hone, d, hd, rfl⟩

lemma grows_wrapChoice {id wrapper : SchemaId} {remappings : List Remapping}
    (h : g.wrapChoice id = some (g', wrapper, remappings)) : Grows g g' := by
  obtain ⟨_, _, d, _, rfl⟩ := wrapChoice_eq_some h
  exact ((grows_push g).trans (grows_composeSubtypes _ _ _ _)).trans (grows_compose _ _ _)

lemma Grows.isDefinitionType (h : Grows g g') {inlineNamedAny : Bool} {id : SchemaId}
    (hid : g.isDefinitionType inlineNamedAny id) : g'.isDefinitionType inlineNamedAny id := by
  have hany := (h id).isAny
  have henumeration := (h id).isEnumeration
  obtain ⟨parts, members, d, _, hnode⟩ := h id
  unfold Graph.isDefinitionType at hid ⊢
  simp only at hid ⊢
  split
  case isTrue hinline =>
    rw [Bool.and_eq_true] at hinline
    rw [if_pos (by rw [hany hinline.1, hinline.2]; rfl)] at hid
    cases hid
  case isFalse =>
    split at hid
    · cases hid
    · rw [Bool.and_eq_true] at hid ⊢
      obtain ⟨hshape, hkind⟩ := hid
      refine ⟨by rw [hnode]; exact hshape, ?_⟩
      simp only [Bool.or_eq_true] at hkind ⊢
      rcases hkind with (henum | hno) | hobject
      · exact .inl (.inl (henumeration henum))
      · exact .inl (.inr (by rw [hnode]; exact hno))
      · exact .inr (by rw [hnode]; exact hobject)

end Graph

end SchemaTypes
