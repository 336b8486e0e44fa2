import SchemaTypes.Proofs.Graph.Wrapping

/-! How a wrapper is threaded into the discriminators of its subtypes. A discriminator keeps its
property and the keys that it has; the values of the subtype are written over or behind them. -/

namespace SchemaTypes

/-- The discriminator of a subtype whose values were mapped to a wrapper. It is a new one for the
property if the subtype had none. -/
def Discriminator.thread (property : String) (wrapper : SchemaId) (values : List String)
    (d : Option (Discriminator SchemaId)) : Option (Discriminator SchemaId) :=
  if values.isEmpty then d
  else
    let d := d.getD ⟨property, []⟩
    some { d with mapping := Entries.putAll d.mapping (values.map (·, wrapper)) }

namespace Discriminator

variable {property : String} {wrapper : SchemaId} {values : List String}
  {d d' : Option (Discriminator SchemaId)}

@[simp] lemma thread_nil : thread property wrapper [] d = d := rfl

lemma thread_cons (value : String) :
    thread property wrapper (value :: values) d =
      thread property wrapper values (thread property wrapper [value] d) := by
  cases values <;> rfl

lemma thread_of_ne_nil (h : values ≠ []) :
    thread property wrapper values d =
      some { d.getD ⟨property, []⟩ with
        mapping := Entries.putAll (d.getD ⟨property, []⟩).mapping (values.map (·, wrapper)) } := by
  cases values with
  | nil => exact absurd rfl h
  | cons value rest => rfl

/-- The second discriminator has the property and the keys of the first one, and an entry that is
not one of the first leads to a wrapper. -/
structure Threads (wrappers : List SchemaId) (d d' : Option (Discriminator SchemaId)) : Prop where
  kept : ∀ a ∈ d, ∃ b ∈ d', b.property = a.property ∧
    a.mapping.map (·.1) <+: b.mapping.map (·.1)
  written : ∀ b ∈ d', ∀ entry ∈ b.mapping, (∃ a ∈ d, entry ∈ a.mapping) ∨ entry.2 ∈ wrappers

lemma Threads.refl (wrappers : List SchemaId) (d : Option (Discriminator SchemaId)) :
    Threads wrappers d d :=
  ⟨fun a ha => ⟨a, ha, rfl, List.prefix_refl _⟩, fun a ha _ hentry => .inl ⟨a, ha, hentry⟩⟩

lemma Threads.mono {wrappers more : List SchemaId} (h : Threads wrappers d d')
    (hsub : wrappers ⊆ more) : Threads more d d' :=
  ⟨h.kept, fun b hb entry hentry =>
    (h.written b hb entry hentry).imp_right fun hmem => hsub hmem⟩

lemma Threads.trans {wrappers more : List SchemaId} {d₁ : Option (Discriminator SchemaId)}
    (h : Threads wrappers d d₁) (h' : Threads more d₁ d') (hsub : wrappers ⊆ more) :
    Threads more d d' := by
  constructor
  · intro a ha
    obtain ⟨b, hb, hproperty, hkeys⟩ := h.kept a ha
    obtain ⟨c, hc, hproperty', hkeys'⟩ := h'.kept b hb
    exact ⟨c, hc, hproperty'.trans hproperty, hkeys.trans hkeys'⟩
  · intro c hc entry hentry
    rcases h'.written c hc entry hentry with ⟨b, hb, hentry⟩ | hwrapper
    · exact (h.written b hb entry hentry).imp_right fun hmem => hsub hmem
    · exact .inr hwrapper

lemma thread_threads (property : String) (wrapper : SchemaId) (values : List String)
    (d : Option (Discriminator SchemaId)) :
    Threads [wrapper] d (thread property wrapper values d) := by
  by_cases hvalues : values = []
  · rw [hvalues, thread_nil]
    exact .refl _ _
  rw [thread_of_ne_nil hvalues]
  constructor
  · rintro a ⟨⟩
    exact ⟨_, rfl, rfl, Entries.keys_prefix_putAll _ _⟩
  · rintro b ⟨⟩ entry hentry
    rcases Entries.snd_of_mem_putAll hentry with hentry | ⟨other, hother, heq⟩
    · cases d with
      | none => cases hentry
      | some a => exact .inl ⟨a, rfl, hentry⟩
    · obtain ⟨value, _, rfl⟩ := List.mem_map.mp hother
      exact .inr (List.mem_singleton.mpr heq)

lemma property_of_thread (h : d' = thread property wrapper values d) {b : Discriminator SchemaId}
    (hb : b ∈ d') : (∃ a ∈ d, b.property = a.property) ∨
      d = none ∧ values ≠ [] ∧ b.property = property := by
  subst h
  by_cases hvalues : values = []
  · rw [hvalues, thread_nil] at hb
    exact .inl ⟨b, hb, rfl⟩
  rw [thread_of_ne_nil hvalues] at hb
  cases hb
  cases d with
  | none => exact .inr ⟨rfl, hvalues, rfl⟩
  | some a => exact .inl ⟨a, rfl, rfl⟩

lemma mem_keys_thread {value : String} :
    (∃ b ∈ thread property wrapper values d, value ∈ b.mapping.map (·.1)) ↔
      (∃ a ∈ d, value ∈ a.mapping.map (·.1)) ∨ value ∈ values := by
  by_cases hvalues : values = []
  · simp [hvalues]
  have hkeys : (values.map (·, wrapper)).map (·.1) = values := by
    rw [List.map_map]
    exact List.map_id values
  simp only [thread_of_ne_nil hvalues, Option.mem_some_iff, exists_eq_left',
    Entries.mem_keys_putAll, hkeys]
  cases d with
  | none => simp
  | some a => simp

lemma mem_thread_of_not_mem {a : Discriminator SchemaId} (ha : a ∈ d)
    {entry : String × SchemaId} (hentry : entry ∈ a.mapping) (hnot : entry.1 ∉ values) :
    ∃ b ∈ thread property wrapper values d, entry ∈ b.mapping := by
  by_cases hvalues : values = []
  · rw [hvalues, thread_nil]
    exact ⟨a, ha, hentry⟩
  rw [thread_of_ne_nil hvalues]
  cases ha
  refine ⟨_, rfl, Entries.mem_putAll_of_not_mem hentry ?_⟩
  simpa using hnot

end Discriminator

namespace Graph

variable {g g' : Graph} {id wrapper : SchemaId} {property : String}

/-- The values that a mapping has for a schema, with references followed so far. -/
def valuesFor (g : Graph) (steps : ℕ) (mapping : List (String × SchemaId)) (id : SchemaId) :
    List String :=
  (mapping.filter fun entry => g.follow steps entry.2 == id).map (·.1)

lemma Grows.valuesFor (h : g.Grows g') (steps : ℕ) (mapping : List (String × SchemaId))
    (id : SchemaId) : g'.valuesFor steps mapping id = g.valuesFor steps mapping id := by
  simp only [Graph.valuesFor, h.follow]

lemma valuesFor_cons (steps : ℕ) (value : String) (target : SchemaId)
    (rest : List (String × SchemaId)) :
    g.valuesFor steps ((value, target) :: rest) id =
      if g.follow steps target = id then value :: g.valuesFor steps rest id
      else g.valuesFor steps rest id := by
  rw [valuesFor, List.filter_cons]
  by_cases h : g.follow steps target = id
  · simp [h, valuesFor]
  · simp [h, valuesFor]

lemma mem_valuesFor {steps : ℕ} {mapping : List (String × SchemaId)} {value : String} :
    value ∈ g.valuesFor steps mapping id ↔
      ∃ target, (value, target) ∈ mapping ∧ g.follow steps target = id := by
  simp [valuesFor]

lemma part_discriminator (value : String) (part : SchemaId) (hid : id < g.size) :
    ((mapValue property wrapper value part (g.compose wrapper part)).1.node id).discriminator =
      Discriminator.thread property wrapper (if part = id then [value] else [])
        (g.node id).discriminator := by
  have hcomposed : ((g.compose wrapper part).node id).discriminator =
      (g.node id).discriminator := update_keeps Node.discriminator rfl id
  split
  case isTrue heq =>
    subst heq
    have hlt : part < (g.compose wrapper part).size := by rwa [compose, size_update]
    rw [mapValue, node_update_self hlt, hcomposed]
    rfl
  case isFalse hne =>
    rw [mapValue, Graph.update, node_set_of_ne _ (Ne.symm hne), hcomposed,
      Discriminator.thread_nil]

lemma composeSubtypes_discriminator (hwrapper : wrapper < g.size) (hid : id < g.size)
    (mapping : List (String × SchemaId)) :
    ((g.composeSubtypes property wrapper mapping).1.node id).discriminator =
      Discriminator.thread property wrapper (g.valuesFor g.size mapping id)
        (g.node id).discriminator := by
  induction mapping generalizing g with
  | nil => rfl
  | cons entry rest ih =>
    obtain ⟨value, target⟩ := entry
    have hpart := composes_part property value (g.actual target) hwrapper
    have hrest := ih (hpart.size ▸ hwrapper) (hpart.size ▸ hid)
    rw [hpart.size, hpart.grows.valuesFor, part_discriminator value _ hid] at hrest
    rw [composeSubtypes, valuesFor_cons]
    refine hrest.trans ?_
    by_cases heq : g.actual target = id
    · rw [if_pos heq, if_pos (by exact heq)]
      exact (Discriminator.thread_cons value).symm
    · rw [if_neg heq, if_neg (by exact heq), Discriminator.thread_nil]

lemma wrapChoice_discriminator {remappings : List Remapping}
    (h : g.wrapChoice id = some (g', wrapper, remappings)) :
    ∃ d, g.actualDiscriminator id = some d ∧ ∀ other ≤ g.size,
      (g'.node other).discriminator =
        Discriminator.thread d.property g.size (g.valuesFor (g.size + 1) d.mapping other)
          (g.node other).discriminator := by
  obtain ⟨_, _, d, hd, rfl⟩ := wrapChoice_eq_some h
  refine ⟨d, hd, fun other hother => ?_⟩
  refine (update_keeps Node.discriminator rfl other).trans ?_
  rw [composeSubtypes_discriminator (lt_size_push (Nat.le_refl g.size)) (lt_size_push hother),
    (grows_push g).valuesFor, size_push, node_push_empty]

end Graph

end SchemaTypes
