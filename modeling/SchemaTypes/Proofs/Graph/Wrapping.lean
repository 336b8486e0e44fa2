import SchemaTypes.Proofs.Entries
import SchemaTypes.Proofs.Graph.Growth
import SchemaTypes.Proofs.Graph.Ranges

/-! What the preparation of a definition does to a graph. Alternatives become members; a wrapper
is one more node, with the subtypes as its parts, and in each subtype a value is mapped to it. -/

namespace SchemaTypes

namespace Node

variable {n : ℕ} {node : Node}

lemma Within.addParts (h : node.Within n) {parts : List SchemaId} (hparts : ∀ id ∈ parts, id < n) :
    ({ node with allOf := node.allOf ++ parts } : Node).Within n := by
  refine { h with allOf := fun id hid => ?_ }
  exact (List.mem_append.mp hid).elim (h.allOf id) (hparts id)

lemma Within.addMembers (h : node.Within n) {members : List Member}
    (hmembers : ∀ id, .schema id ∈ members → id < n) :
    ({ node with enumeration := node.enumeration ++ members } : Node).Within n := by
  refine { h with members := fun id hid => ?_ }
  exact (List.mem_append.mp hid).elim (h.members id) (hmembers id)

lemma Within.setDiscriminator (h : node.Within n) {d : Discriminator SchemaId}
    (hd : ∀ entry ∈ d.mapping, entry.2 < n) :
    ({ node with discriminator := some d } : Node).Within n := by
  refine { h with discriminator := fun d' hd' => ?_ }
  rw [Option.mem_some_iff] at hd'
  exact hd' ▸ hd

def MapsTo (node : Node) (target : SchemaId) : Prop :=
  ∃ d ∈ node.discriminator, ∃ entry ∈ d.mapping, entry.2 = target

end Node

namespace Graph

variable {g g' : Graph} {id target wrapper : SchemaId}

lemma node_update_self {f : Node → Node} (h : id < g.size) :
    (g.update id f).node id = f (g.node id) := node_set_self _ h

lemma node_push_empty (g : Graph) (id : SchemaId) : (g.push {}).node id = g.node id := by
  rcases Nat.lt_trichotomy id g.size with h | rfl | h
  · exact node_push_of_lt {} h
  · rw [node_push_size, node_of_size_le (Nat.le_refl _)]
  · rw [node_of_size_le (Nat.le_of_lt h), node_of_size_le (by rw [size_push]; exact h)]

lemma update_keeps {β : Type} {f : Node → Node} (p : Node → β)
    (h : p (f (g.node id)) = p (g.node id)) (other : SchemaId) :
    p ((g.update id f).node other) = p (g.node other) := by
  by_cases hother : other = id
  · subst hother
    by_cases hlt : other < g.size
    · rw [node_update_self hlt, h]
    · have hle := Nat.le_of_not_lt hlt
      rw [node_of_size_le hle, node_of_size_le (by rw [size_update]; exact hle)]
  · rw [update, node_set_of_ne _ hother]

lemma Grows.follow (h : g.Grows g') (steps : ℕ) (id : SchemaId) :
    g'.follow steps id = g.follow steps id := by
  induction steps generalizing id with
  | zero => rfl
  | succ steps ih =>
    rw [Graph.follow, Graph.follow, (h id).reference]
    cases (g.node id).reference with
    | none => rfl
    | some target => exact ih target

lemma Grows.actual (h : g.Grows g') (hsize : g'.size = g.size) (id : SchemaId) :
    g'.actual id = g.actual id := by
  rw [Graph.actual, Graph.actual, hsize, h.follow]

lemma Closed.follow_lt (hg : g.Closed) (hid : id < g.size) (steps : ℕ) :
    g.follow steps id < g.size := by
  induction steps generalizing id with
  | zero => exact hid
  | succ steps ih =>
    rw [follow]
    split
    · rename_i target href
      exact ih ((hg id).reference target href)
    · exact hid

lemma Closed.actual_lt (hg : g.Closed) (hid : id < g.size) : g.actual id < g.size :=
  hg.follow_lt hid g.size

lemma Closed.push (hg : g.Closed) : (g.push {}).Closed := by
  intro id
  rw [node_push_empty, size_push]
  exact (hg id).mono (Nat.le_succ _)

lemma Closed.update (hg : g.Closed) {f : Node → Node} (hf : (f (g.node id)).Within g.size) :
    (g.update id f).Closed := by
  intro other
  rw [size_update]
  by_cases hother : other = id
  · subst hother
    by_cases hlt : other < g.size
    · rwa [node_update_self hlt]
    · rw [node_of_size_le (by rw [size_update]; exact Nat.le_of_not_lt hlt)]
      exact Node.within_empty _
  · rw [Graph.update, node_set_of_ne _ hother]
    exact hg other

section Expansion

lemma expandAlternatives_size (g : Graph) (id : SchemaId) :
    (g.expandAlternatives id).size = g.size := by
  rcases g.expandAlternatives_cases id with heq | ⟨_, _, _, heq⟩ <;> rw [heq]
  exact size_update g id _

lemma expandAlternatives_keeps (g : Graph) {β : Type} (p : Node → β)
    (hp : ∀ node members, p { node with enumeration := members } = p node) (id other : SchemaId) :
    p ((g.expandAlternatives id).node other) = p (g.node other) := by
  rcases g.expandAlternatives_cases id with heq | ⟨_, _, _, heq⟩ <;> rw [heq]
  exact update_keeps p (hp _ _) other

lemma Closed.expandAlternatives (hg : g.Closed) (id : SchemaId) :
    (g.expandAlternatives id).Closed := by
  rcases g.expandAlternatives_cases id with heq | ⟨_, _, _, heq⟩ <;> rw [heq]
  · exact hg
  · refine hg.update ((hg id).addMembers fun other hother => ?_)
    obtain ⟨entry, hentry, heq⟩ := List.mem_map.mp hother
    cases entry with
    | none => cases heq
    | some alternative =>
      cases heq
      exact (hg id).oneOf other hentry

end Expansion

/-- From the first graph to the second the wrapper got these parts, and each of them got a
discriminator with the wrapper. Parts and discriminators of all other nodes stayed. -/
structure Composes (wrapper : SchemaId) (parts : List SchemaId) (g g' : Graph) : Prop where
  size : g'.size = g.size
  grows : g.Grows g'
  composed : (g'.node wrapper).allOf = (g.node wrapper).allOf ++ parts
  others : ∀ id, id ≠ wrapper → (g'.node id).allOf = (g.node id).allOf
  members : ∀ id, (g'.node id).enumeration = (g.node id).enumeration
  untouched : ∀ id, id ∉ parts → (g'.node id).discriminator = (g.node id).discriminator
  touched : ∀ id ∈ parts, id < g.size → (g'.node id).MapsTo wrapper

section Composition

variable {property value : String}

lemma mapValue_mapsTo (h : id < g.size) :
    ((g.mapValue property wrapper value id).1.node id).MapsTo wrapper := by
  rw [mapValue, node_update_self h]
  obtain ⟨entry, hentry, heq⟩ := Entries.exists_mem_put value wrapper
    ((g.node id).discriminator.getD ⟨property, []⟩).mapping
  exact ⟨_, rfl, entry, hentry, heq⟩

lemma composes_part (property value : String) (part : SchemaId) (hwrapper : wrapper < g.size) :
    Composes wrapper [part] g
      (mapValue property wrapper value part (g.compose wrapper part)).1 := by
  have hgrows := (grows_compose wrapper part g).trans
    (grows_mapValue property wrapper value part (g.compose wrapper part))
  have hsize : (g.compose wrapper part).size = g.size := size_update ..
  refine ⟨?_, hgrows, ?_, fun other hother => ?_, fun other => ?_, fun other hother => ?_, ?_⟩
  · exact (size_update ..).trans hsize
  · refine (update_keeps Node.allOf rfl wrapper).trans ?_
    rw [compose, node_update_self hwrapper]
  · refine (update_keeps Node.allOf rfl other).trans ?_
    rw [compose, Graph.update, node_set_of_ne _ hother]
  · exact (update_keeps Node.enumeration rfl other).trans (update_keeps Node.enumeration rfl other)
  · rw [List.mem_singleton] at hother
    rw [mapValue, Graph.update, node_set_of_ne _ hother]
    exact update_keeps Node.discriminator rfl other
  · intro other hother hlt
    rw [List.mem_singleton.mp hother] at hlt ⊢
    exact mapValue_mapsTo (by rwa [hsize])

lemma Composes.trans {g₁ : Graph} {first later : List SchemaId} (h : Composes wrapper first g g₁)
    (h' : Composes wrapper later g₁ g') : Composes wrapper (first ++ later) g g' := by
  refine ⟨h'.size.trans h.size, h.grows.trans h'.grows, ?_, fun id hid => ?_, fun id => ?_,
    fun id hid => ?_, fun id hid hlt => ?_⟩
  · rw [h'.composed, h.composed, List.append_assoc]
  · rw [h'.others id hid, h.others id hid]
  · rw [h'.members, h.members]
  · rw [List.mem_append, not_or] at hid
    rw [h'.untouched id hid.2, h.untouched id hid.1]
  · by_cases hlater : id ∈ later
    · exact h'.touched id hlater (by rwa [h.size])
    · have hfirst := (List.mem_append.mp hid).resolve_right hlater
      rw [Node.MapsTo, h'.untouched id hlater]
      exact h.touched id hfirst hlt

lemma composeSubtypes_composes (property : String) (hwrapper : wrapper < g.size)
    (mapping : List (String × SchemaId)) :
    Composes wrapper (mapping.map fun entry => g.actual entry.2) g
      (g.composeSubtypes property wrapper mapping).1 := by
  induction mapping generalizing g with
  | nil =>
    exact ⟨rfl, .refl g, by simp [composeSubtypes], fun _ _ => rfl, fun _ => rfl, fun _ _ => rfl,
      by simp⟩
  | cons entry rest ih =>
    obtain ⟨value, target⟩ := entry
    have hpart := composes_part property value (g.actual target) hwrapper
    have hrest := ih (hpart.size ▸ hwrapper)
    simp only [hpart.grows.actual hpart.size] at hrest
    exact hpart.trans hrest

lemma Closed.mapping_lt (hg : g.Closed) {d : Discriminator SchemaId}
    (hd : g.actualDiscriminator id = some d) : ∀ entry ∈ d.mapping, entry.2 < g.size := by
  rw [actualDiscriminator] at hd
  cases hown : (g.node id).discriminator with
  | none =>
    rw [hown] at hd
    exact (hg _).discriminator d hd
  | some d' =>
    rw [hown] at hd
    cases hd
    exact (hg id).discriminator d hown

lemma Closed.compose (hg : g.Closed) (hid : id < g.size) : (g.compose wrapper id).Closed :=
  hg.update ((hg wrapper).addParts (by simpa using hid))

lemma Closed.mapValue (hg : g.Closed) (hwrapper : wrapper < g.size) :
    (g.mapValue property wrapper value id).1.Closed := by
  refine hg.update ((hg id).setDiscriminator fun entry hentry => ?_)
  rcases Entries.snd_of_mem_put hentry with heq | hentry
  · rw [heq]
    exact hwrapper
  · cases hd : (g.node id).discriminator with
    | none => simp [hd] at hentry
    | some d =>
      rw [hd] at hentry
      exact (hg id).discriminator d hd entry hentry

lemma Closed.composeSubtypes (hg : g.Closed) (hwrapper : wrapper < g.size)
    {mapping : List (String × SchemaId)} (hmapping : ∀ entry ∈ mapping, entry.2 < g.size) :
    (g.composeSubtypes property wrapper mapping).1.Closed := by
  induction mapping generalizing g with
  | nil => exact hg
  | cons entry rest ih =>
    obtain ⟨value, target⟩ := entry
    have hpart := composes_part property value (g.actual target) hwrapper
    have htarget := hg.actual_lt (hmapping _ List.mem_cons_self)
    have hcomposed : (g.compose wrapper (g.actual target)).Closed := hg.compose htarget
    refine ih (hcomposed.mapValue (by rwa [Graph.compose, size_update])) (hpart.size ▸ hwrapper) ?_
    intro entry hentry
    exact Nat.lt_of_lt_of_eq (hmapping entry (List.mem_cons_of_mem _ hentry)) hpart.size.symm

/-- The second graph has one more node, the wrapper of a choice: the mapped subtypes and then the
choice are its parts, and in each subtype a value is mapped to it. -/
structure WrapsChoice (id : SchemaId) (parts : List SchemaId) (g g' : Graph) : Prop where
  size : g'.size = g.size + 1
  grows : g.Grows g'
  composed : (g'.node g.size).allOf = parts ++ [id]
  others : ∀ other, other ≠ g.size → (g'.node other).allOf = (g.node other).allOf
  untouched : ∀ other, other ∉ parts → (g'.node other).discriminator = (g.node other).discriminator
  touched : ∀ other ∈ parts, other ≤ g.size → (g'.node other).MapsTo g.size

lemma WrapsChoice.of_expandAlternatives {parts : List SchemaId}
    (h : WrapsChoice id parts (g.expandAlternatives target) g') : WrapsChoice id parts g g' := by
  have hsize := expandAlternatives_size g target
  have hallOf := expandAlternatives_keeps g Node.allOf (fun _ _ => rfl) target
  have hdiscriminator := expandAlternatives_keeps g Node.discriminator (fun _ _ => rfl) target
  obtain ⟨h₁, h₂, h₃, h₄, h₅, h₆⟩ := h
  simp only [hsize, hallOf, hdiscriminator] at h₁ h₃ h₄ h₅ h₆
  exact ⟨h₁, (grows_expandAlternatives g target).trans h₂, h₃, h₄, h₅, h₆⟩

lemma lt_size_push {other : SchemaId} (h : other ≤ g.size) : other < (g.push {}).size := by
  rw [size_push]
  exact Nat.lt_succ_of_le h

lemma composeSubtypes_push (d : Discriminator SchemaId) :
    Composes g.size (d.mapping.map fun entry => g.follow (g.size + 1) entry.2) (g.push {})
      (composeSubtypes d.property g.size d.mapping (g.push {})).1 := by
  have hwrapper := lt_size_push (Nat.le_refl g.size)
  have hcomposes := composeSubtypes_composes d.property hwrapper d.mapping
  have hparts : (d.mapping.map fun entry => (g.push {}).actual entry.2) =
      d.mapping.map fun entry => g.follow (g.size + 1) entry.2 := by
    refine List.map_congr_left fun entry _ => ?_
    rw [Graph.actual, (grows_push g).follow, size_push]
  rwa [hparts] at hcomposes

lemma Composes.wrapsChoice {parts : List SchemaId} (h : Composes g.size parts (g.push {}) g') :
    WrapsChoice id parts g (g'.compose g.size id) := by
  refine ⟨?_, ((grows_push g).trans h.grows).trans (grows_compose _ _ _), ?_,
    fun other hother => ?_, fun other hother => ?_, fun other hother hle => ?_⟩
  · rw [compose, size_update, h.size, size_push]
  · have hlt := lt_size_push (Nat.le_refl g.size)
    rw [compose, node_update_self (by rwa [h.size]), h.composed, node_push_size, List.nil_append]
  · rw [compose, Graph.update, node_set_of_ne _ hother, h.others other hother, node_push_empty]
  · refine (update_keeps Node.discriminator rfl other).trans ?_
    rw [h.untouched other hother, node_push_empty]
  · have htouched := h.touched other hother (lt_size_push hle)
    rwa [Node.MapsTo, compose, update_keeps Node.discriminator rfl other]

lemma closed_wrapped (hg : g.Closed) (hone : (g.node id).oneOf ≠ [])
    {d : Discriminator SchemaId} (hd : g.actualDiscriminator id = some d) :
    ((composeSubtypes d.property g.size d.mapping (g.push {})).1.compose g.size id).Closed := by
  have hid : id < g.size := lt_size_of_ne Node.oneOf hone
  have hlt := lt_size_push (Nat.le_refl g.size)
  refine Closed.compose (hg.push.composeSubtypes hlt fun entry hentry => ?_) ?_
  · exact lt_size_push (Nat.le_of_lt (hg.mapping_lt hd entry hentry))
  · rw [(composeSubtypes_push d).size]
    exact lt_size_push (Nat.le_of_lt hid)

lemma wrapChoice_wraps {remappings : List Remapping}
    (h : g.wrapChoice id = some (g', wrapper, remappings)) :
    wrapper = g.size ∧ (g.node id).oneOf ≠ [] ∧ ∃ d, g.actualDiscriminator id = some d ∧
      WrapsChoice id (d.mapping.map fun entry => g.follow (g.size + 1) entry.2) g g' ∧
      (∀ other, (g'.node other).enumeration = (g.node other).enumeration) ∧
      (g.Closed → g'.Closed) := by
  obtain ⟨hwrapper, hone, d, hd, rfl⟩ := wrapChoice_eq_some h
  have hcomposes := composeSubtypes_push (g := g) d
  refine ⟨hwrapper, hone, d, hd, hcomposes.wrapsChoice, fun other => ?_,
    fun hg => closed_wrapped hg hone hd⟩
  refine (update_keeps Node.enumeration rfl other).trans ?_
  rw [hcomposes.members, node_push_empty]

end Composition

end Graph

end SchemaTypes
