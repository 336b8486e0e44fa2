import SchemaTypes.Proofs.Graph.Following
import SchemaTypes.Proofs.Session.Effects

/-! The labels of subtypes. A schema has one discriminator, whichever hierarchies it is a subtype
of: that of the document, or one that got its property from the first hierarchy. It collects the
values that all of them have for the schema. -/

namespace SchemaTypes

/-- The choice maps the value to the schema. References are followed as far as they are when this
wrapper is made. -/
def Graph.Maps (g : Graph) (choice wrapper : SchemaId) (value : String) (id : SchemaId) : Prop :=
  ∃ d ∈ (g.node choice).discriminator, ∃ entry ∈ d.mapping, entry.1 = value ∧
    g.follow (wrapper + 1) entry.2 = id

instance (g : Graph) (choice wrapper : SchemaId) (value : String) (id : SchemaId) :
    Decidable (g.Maps choice wrapper value id) :=
  inferInstanceAs (Decidable (∃ d ∈ (g.node choice).discriminator, _))

lemma Graph.Maps.lt {g : Graph} {choice wrapper id : SchemaId} {value : String}
    (h : g.Maps choice wrapper value id) (hg : g.Closed) : id < g.size := by
  obtain ⟨d, hd, entry, hentry, _, rfl⟩ := h
  exact hg.follow_lt ((hg choice).discriminator d hd _ hentry) _

namespace Session

variable {env : Environment} {s t : Session} {g : Graph} {id choice wrapper : SchemaId}
  {value property : String} {wrappers more : List (SchemaId × SchemaId)}

/-- The wrapper was made for a mapping that has the value for the schema. No earlier hierarchy has
taken the entry away by mapping the same value to the choice. -/
structure Assigns (g : Graph) (wrappers : List (SchemaId × SchemaId)) (choice wrapper : SchemaId)
    (value : String) (id : SchemaId) : Prop where
  wrapped : (choice, wrapper) ∈ wrappers
  maps : g.Maps choice wrapper value id
  kept : ∀ entry ∈ wrappers, entry.2 < wrapper → ¬ g.Maps entry.1 entry.2 value choice

instance (g : Graph) (wrappers : List (SchemaId × SchemaId)) (choice wrapper : SchemaId)
    (value : String) (id : SchemaId) : Decidable (Assigns g wrappers choice wrapper value id) :=
  decidable_of_iff
    ((choice, wrapper) ∈ wrappers ∧ g.Maps choice wrapper value id ∧
      ∀ entry ∈ wrappers, entry.2 < wrapper → ¬ g.Maps entry.1 entry.2 value choice)
    ⟨fun ⟨h₁, h₂, h₃⟩ => ⟨h₁, h₂, h₃⟩, fun ⟨h₁, h₂, h₃⟩ => ⟨h₁, h₂, h₃⟩⟩

/-- The property is that of the first hierarchy that has a value for the schema. -/
def FirstProperty (g : Graph) (wrappers : List (SchemaId × SchemaId)) (id : SchemaId)
    (property : String) : Prop :=
  ∃ choice wrapper value, (choice, wrapper) ∈ wrappers ∧ g.Maps choice wrapper value id ∧
    (∀ d ∈ (g.node choice).discriminator, d.property = property) ∧
    ∀ other earlier value, earlier < wrapper → ¬ Assigns g wrappers other earlier value id

/-- The value is one of the schema itself, or some hierarchy has it for the schema. -/
def Labels (g : Graph) (wrappers : List (SchemaId × SchemaId)) (id : SchemaId) (value : String) :
    Prop :=
  (∃ d ∈ (g.node id).discriminator, value ∈ d.mapping.map (·.1)) ∨
    ∃ choice wrapper, (choice, wrapper) ∈ wrappers ∧ g.Maps choice wrapper value id

lemma Labels.mono (h : Labels g wrappers id value) (hsub : wrappers ⊆ more) :
    Labels g more id value :=
  h.imp_right fun ⟨choice, wrapper, hmem, hmaps⟩ => ⟨choice, wrapper, hsub hmem, hmaps⟩

/-- What the discriminators of a session say about the hierarchies. -/
structure Labelled (g : Graph) (s : Session) : Prop where
  property : ∀ id < g.size, (g.node id).discriminator = none →
    ∀ d ∈ (s.graph.node id).discriminator, FirstProperty g s.wrappers id d.property
  assigned : ∀ choice wrapper value id, Assigns g s.wrappers choice wrapper value id →
    ∃ d ∈ (s.graph.node id).discriminator, value ∈ d.mapping.map (·.1)
  labels : ∀ id < g.size, ∀ value,
    (∃ d ∈ (s.graph.node id).discriminator, value ∈ d.mapping.map (·.1)) →
      Labels g s.wrappers id value
  entries : ∀ id, ∀ d ∈ (g.node id).discriminator, ∀ entry ∈ d.mapping,
    (∃ d' ∈ (s.graph.node id).discriminator, entry ∈ d'.mapping) ∨
      ∃ other ∈ s.wrappers, g.Maps other.1 other.2 entry.1 id

lemma Labelled.start (g : Graph) : Labelled g { graph := g } where
  property id _ hnone d hd := by
    rw [hnone] at hd
    cases hd
  assigned _ _ _ _ h := absurd h.wrapped (by simp)
  labels _ _ _ h := .inl h
  entries _ d hd _ hentry := .inl ⟨d, hd, hentry⟩

lemma Labelled.congr (h : Labelled g s) (hwrappers : t.wrappers = s.wrappers)
    (hdiscriminator : ∀ id, (t.graph.node id).discriminator = (s.graph.node id).discriminator) :
    Labelled g t := by
  obtain ⟨h₁, h₂, h₃, h₄⟩ := h
  constructor <;> simpa only [hwrappers, hdiscriminator]

lemma Reshapes.loaded (h : Reshapes g s) (hs : Extends g s) {d : Discriminator SchemaId}
    (hd : d ∈ (s.graph.node choice).discriminator) {target : SchemaId}
    (hentry : (value, target) ∈ d.mapping) (hfollow : g.follow (wrapper + 1) target = id)
    (hid : id < g.size) : g.Maps choice wrapper value id := by
  rcases (h.threads choice).written d hd _ hentry with ⟨a, ha, hentry⟩ | hwrapper
  · exact ⟨a, ha, _, hentry, rfl, hfollow⟩
  · -- A wrapper leads to itself.
    rw [hs.numbers, List.mem_range'_1] at hwrapper
    have hge : g.size ≤ target := hwrapper.1
    rw [Graph.follow_of_reference (by rw [Graph.node_of_size_le hge])] at hfollow
    exact absurd hid (Nat.not_lt.mpr (hfollow ▸ hge))

section

variable {d : Discriminator SchemaId} (hwraps : Wraps choice d s t)

include hwraps

lemma Wraps.assigns {other earlier : SchemaId} (h : Assigns g t.wrappers other earlier value id)
    (hlt : earlier < s.graph.size) : Assigns g s.wrappers other earlier value id := by
  refine ⟨(hwraps.mem_or_new h.wrapped).resolve_right fun hnew => ?_, h.maps,
    fun entry hentry => h.kept entry (hwraps.wrappers_subset hentry)⟩
  rw [(Prod.mk.inj hnew).2] at hlt
  exact Nat.lt_irrefl _ hlt

variable (hown : (s.graph.node choice).discriminator = some d) (hs : Extends g s)
  (hreshapes : Reshapes g s) (h : Labelled g s)

include hown hs hreshapes

omit hwraps in
lemma Extends.maps_of_valuesFor (hid : id < g.size)
    (hvalue : value ∈ s.graph.valuesFor (s.graph.size + 1) d.mapping id) :
    g.Maps choice s.graph.size value id := by
  obtain ⟨target, hentry, hfollow⟩ := Graph.mem_valuesFor.mp hvalue
  rw [hs.grows.follow] at hfollow
  exact hreshapes.loaded hs hown hentry hfollow hid

include h

lemma Wraps.firstProperty (hid : id < g.size) (hnone : (g.node id).discriminator = none)
    (hthread : (t.graph.node id).discriminator = Discriminator.thread d.property s.graph.size
      (s.graph.valuesFor (s.graph.size + 1) d.mapping id) (s.graph.node id).discriminator)
    {d' : Discriminator SchemaId} (hd' : d' ∈ (t.graph.node id).discriminator) :
    FirstProperty g t.wrappers id d'.property := by
  rcases Discriminator.property_of_thread hthread hd' with ⟨a, ha, hproperty⟩ |
    ⟨hbefore, hvalues, hproperty⟩
  · obtain ⟨first, wrapper, value, hmem, hfirst, hsame, hearlier⟩ := h.property id hid hnone a ha
    rw [hproperty]
    have hwrapper := (hs.wrapper_range hmem).2
    refine ⟨first, wrapper, value, hwraps.wrappers_subset hmem, hfirst, hsame, ?_⟩
    intro other earlier value hlt hassigns
    exact hearlier other earlier value hlt (hwraps.assigns hassigns (hlt.trans hwrapper))
  · -- The first hierarchy of the schema is this one.
    obtain ⟨value, hvalue⟩ := List.exists_mem_of_ne_nil _ hvalues
    have hmaps := hs.maps_of_valuesFor hown hreshapes hid hvalue
    refine ⟨choice, s.graph.size, value, hwraps.new_mem, hmaps, fun a ha => ?_,
      fun other earlier value hlt hassigns => ?_⟩
    · obtain ⟨b, hb, hsame, _⟩ := (hreshapes.threads choice).kept a ha
      rw [hown, Option.mem_some_iff] at hb
      rw [hproperty, hb, hsame]
    · obtain ⟨a, ha, _⟩ := h.assigned _ _ _ _ (hwraps.assigns hassigns hlt)
      rw [hbefore] at ha
      cases ha

omit hreshapes in
lemma Wraps.assigned_or_new {other : SchemaId}
    (hassigns : Assigns g t.wrappers other wrapper value id) :
    Assigns g s.wrappers other wrapper value id ∨
      value ∈ s.graph.valuesFor (s.graph.size + 1) d.mapping id := by
  rcases hwraps.mem_or_new hassigns.wrapped with hmem | hnew
  · exact .inl (hwraps.assigns hassigns (hs.wrapper_range hmem).2)
  right
  obtain ⟨rfl, rfl⟩ := Prod.mk.inj hnew
  obtain ⟨a, ha, ⟨value, target⟩, hentry, rfl, hfollow⟩ := hassigns.maps
  rcases h.entries other a ha _ hentry with ⟨b, hb, hentry⟩ | ⟨taker, htaker, htaken⟩
  · rw [hown, Option.mem_some_iff] at hb
    subst hb
    rw [← hs.grows.follow] at hfollow
    exact Graph.mem_valuesFor.mpr ⟨target, hentry, hfollow⟩
  · have hearlier := (hs.wrapper_range htaker).2
    exact absurd htaken (hassigns.kept taker (hwraps.wrappers_subset htaker) hearlier)

end

lemma Wraps.labelled {d : Discriminator SchemaId} (hwraps : Wraps choice d s t)
    (hthread : ∀ id ≤ s.graph.size, (t.graph.node id).discriminator =
      Discriminator.thread d.property s.graph.size
        (s.graph.valuesFor (s.graph.size + 1) d.mapping id) (s.graph.node id).discriminator)
    (hg : g.Closed) (href : ∀ id, (g.node id).reference.isSome → (g.node id).oneOf = [])
    (hs : Extends g s) (hreshapes : Reshapes g s) (h : Labelled g s) : Labelled g t := by
  have hown := hwraps.own hs href
  have hsub := hwraps.wrappers_subset
  have hle {id : SchemaId} (hid : id < g.size) : id ≤ s.graph.size :=
    Nat.le_of_lt (Nat.lt_of_lt_of_le hid hs.le_size)
  have hmaps {id : SchemaId} (hid : id < g.size) {value : String}
      (hvalue : value ∈ s.graph.valuesFor (s.graph.size + 1) d.mapping id) :
      g.Maps choice s.graph.size value id := hs.maps_of_valuesFor hown hreshapes hid hvalue
  constructor
  case property =>
    intro id hid hnone d' hd'
    exact hwraps.firstProperty hown hs hreshapes h hid hnone (hthread id (hle hid)) hd'
  case assigned =>
    intro other wrapper value id hassigns
    rw [hthread id (hle (hassigns.maps.lt hg)), Discriminator.mem_keys_thread]
    exact (hwraps.assigned_or_new hown hs h hassigns).imp_left fun hbefore =>
      h.assigned other wrapper value id hbefore
  case labels =>
    intro id hid value hvalue
    rw [hthread id (hle hid), Discriminator.mem_keys_thread] at hvalue
    rcases hvalue with hvalue | hvalue
    · exact (h.labels id hid value hvalue).mono hsub
    · exact .inr ⟨choice, s.graph.size, hwraps.new_mem, hmaps hid hvalue⟩
  case entries =>
    intro id a ha entry hentry
    have hid : id < g.size :=
      Graph.lt_size_of_ne Node.discriminator (Option.ne_none_iff_exists'.mpr ⟨a, ha⟩)
    rcases h.entries id a ha entry hentry with ⟨b, hb, hentry⟩ | ⟨other, hother, htaken⟩
    · by_cases hvalue : entry.1 ∈ s.graph.valuesFor (s.graph.size + 1) d.mapping id
      · exact .inr ⟨_, hwraps.new_mem, hmaps hid hvalue⟩
      · rw [hthread id (hle hid)]
        exact .inl (Discriminator.mem_thread_of_not_mem hb hentry hvalue)
    · exact .inr ⟨other, hsub hother, htaken⟩

lemma Run.labelled (hrun : Run env { graph := g } s) (hg : g.Closed) {rank : SchemaId → ℕ}
    (hrank : g.Ranked rank)
    (href : ∀ id, (g.node id).reference.isSome → (g.node id).oneOf = []) : Labelled g s := by
  induction hrun with
  | refl => exact .start g
  | @tail s t hfirst hstep ih =>
    obtain ⟨hs, hreshapes⟩ := Run.reshapes hfirst hg hrank
    rcases hstep.prepare_cases with ⟨hgraph, hwrappers, _⟩ | ⟨base, rfl⟩
    · exact ih.congr hwrappers (by simp [hgraph])
    · rcases s.prepare_discriminator base with ⟨hwrappers, hsame⟩ | ⟨d, hwraps, hthread⟩
      · exact ih.congr hwrappers hsame
      · exact hwraps.labelled hthread hg href hs hreshapes ih

end Session

end SchemaTypes
