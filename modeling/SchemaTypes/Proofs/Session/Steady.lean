import SchemaTypes.Proofs.Session.Carriers

/-! Schemas that stay as they are while a session goes on. What a usage of a schema is spelled by
is read off few things that can happen to it: it gets a wrapper, members, a first discriminator or,
as a list or dictionary, a name. -/

namespace SchemaTypes

/-- A usage of the first schema may be spelled by one of the second. -/
inductive Graph.Uses (g : Graph) (id other : SchemaId) : Prop
  | reference (h : (g.node id).reference = some other)
  | oneOf (h : some other ∈ (g.node id).oneOf)
  | anyOf (h : other ∈ (g.node id).anyOf)
  | each (h : (g.node id).items = some (.each other))
  | tuple (items : List SchemaId) (h : (g.node id).items = some (.tuple items))
      (hmem : other ∈ items)
  | additional (h : (g.node id).additional = some other)
  | pattern (regex : String) (h : (regex, other) ∈ (g.node id).patterns)
  | dictionaryKey (h : (g.node id).dictionaryKey = some other)

namespace Graph

variable {g g' : Graph} {id other : SchemaId} {P : SchemaId → Prop}

lemma Grows.uses (h : g.Grows g') (huses : g'.Uses id other) : g.Uses id other := by
  obtain ⟨_, _, _, _, hnode⟩ := h id
  cases huses with
  | reference h => exact .reference (by rwa [hnode] at h)
  | oneOf h => exact .oneOf (by rwa [hnode] at h)
  | anyOf h => exact .anyOf (by rwa [hnode] at h)
  | each h => exact .each (by rwa [hnode] at h)
  | tuple items h hmem => exact .tuple items (by rwa [hnode] at h) hmem
  | additional h => exact .additional (by rwa [hnode] at h)
  | pattern regex h => exact .pattern regex (by rwa [hnode] at h)
  | dictionaryKey h => exact .dictionaryKey (by rwa [hnode] at h)

lemma Closed.uses_lt (hg : g.Closed) (huses : g.Uses id other) : other < g.size := by
  have hnode := hg id
  cases huses with
  | reference h => exact hnode.reference other h
  | oneOf h => exact hnode.oneOf other h
  | anyOf h => exact hnode.anyOf other h
  | each h => exact hnode.each other h
  | tuple items h hmem => exact hnode.tuple items h other hmem
  | additional h => exact hnode.additional other h
  | pattern regex h => exact hnode.patterns _ h
  | dictionaryKey h => exact hnode.dictionaryKey other h

lemma Closed.reaches_lt (hg : g.Closed) (hid : id < g.size)
    (hreach : Relation.ReflTransGen g.Uses id other) : other < g.size := by
  induction hreach with
  | refl => exact hid
  | tail _ huses _ => exact hg.uses_lt huses

/-- What these schemas use is among them. -/
def UsesWithin (g : Graph) (P : SchemaId → Prop) : Prop :=
  ∀ id other, P id → g.Uses id other → P other

namespace UsesWithin

variable (hP : g.UsesWithin P) (hid : P id)

include hP hid

lemma follow (steps : ℕ) : P (g.follow steps id) := by
  induction steps generalizing id with
  | zero => exact hid
  | succ steps ih =>
    rw [Graph.follow]
    split
    · rename_i target htarget
      exact ih (hP id target hid (.reference htarget))
    · exact hid

lemma actual : P (g.actual id) := hP.follow hid g.size

lemma removeNullability : P (g.removeNullability id) := by
  rcases g.removeNullability_cases id with heq | hmem
  · rwa [heq]
  · exact hP id _ hid (.oneOf hmem)

lemma resolvable (inlineNamedAny : Bool) : P (g.resolvable inlineNamedAny id) := by
  have hbare := hP.removeNullability hid
  rcases g.resolvable_cases inlineNamedAny id with heq | heq <;> rw [heq]
  · exact hbare
  · exact hP.actual hbare

end UsesWithin

lemma Grows.actual_of_ended (h : g.Grows g') (hend : (g.node (g.actual id)).reference = none) :
    g'.actual id = g.actual id := by
  have hfollow : g'.follow g.size id = g.actual id := h.follow g.size id
  rw [← hfollow]
  apply actual_of_follow
  rw [hfollow, (h _).reference]
  exact hend

end Graph

namespace Session

variable {env : Environment} {s t u : Session} {id : SchemaId} {P : SchemaId → Prop}

def IsContainer (s : Session) (id : SchemaId) : Prop :=
  (s.graph.node id).isArray ∨ (s.graph.node id).isDictionary

/-- References from the schema end, and nothing happens to it that its usages depend on. -/
structure Steady (s t : Session) (id : SchemaId) : Prop where
  ends : (s.graph.node (s.graph.actual id)).reference = none
  unwrapped : s.wrapper? id = none → t.wrapper? id = none
  members : (s.graph.node id).enumeration = [] → (t.graph.node id).enumeration = []
  discriminator : (s.graph.node id).isAny ∨ (s.graph.node id).oneOf ≠ [] →
    (s.graph.node id).discriminator = none → (t.graph.node id).discriminator = none
  unnamed : s.IsContainer id → s.nameOf? id = none → t.nameOf? id = none

instance (s t : Session) (id : SchemaId) : Decidable (Steady s t id) :=
  decidable_of_iff
    ((s.graph.node (s.graph.actual id)).reference = none ∧
      (s.wrapper? id = none → t.wrapper? id = none) ∧
      ((s.graph.node id).enumeration = [] → (t.graph.node id).enumeration = []) ∧
      ((s.graph.node id).isAny ∨ (s.graph.node id).oneOf ≠ [] →
        (s.graph.node id).discriminator = none → (t.graph.node id).discriminator = none) ∧
      ((s.graph.node id).isArray ∨ (s.graph.node id).isDictionary →
        s.nameOf? id = none → t.nameOf? id = none))
    ⟨fun ⟨h₁, h₂, h₃, h₄, h₅⟩ => ⟨h₁, h₂, h₃, h₄, h₅⟩, fun ⟨h₁, h₂, h₃, h₄, h₅⟩ =>
      ⟨h₁, h₂, h₃, h₄, h₅⟩⟩

lemma Run.isContainer (h : Run env s t) : t.IsContainer id ↔ s.IsContainer id := by
  obtain ⟨_, _, _, _, hnode⟩ := h.grows id
  rw [IsContainer, IsContainer, hnode]
  rfl

lemma Steady.later (h : Steady s t id) (hu : Run env s u) : Steady u t id where
  ends := by
    rw [hu.grows.actual_of_ended h.ends, (hu.grows _).reference]
    exact h.ends
  unwrapped hnone := h.unwrapped (by
    by_contra hsome
    obtain ⟨wrapper, hwrapper⟩ := Option.ne_none_iff_exists'.mp hsome
    rw [hu.wrapper? hwrapper] at hnone
    cases hnone)
  members hnone := h.members (by
    obtain ⟨members, hmembers, _⟩ := hu.expands id
    rw [hmembers] at hnone
    exact (List.append_eq_nil_iff.mp hnone).1)
  discriminator hplain hnone := by
    refine h.discriminator (hplain.imp (hu.grows id).isAny ?_)
      ((hu.grows id).discriminator_eq_none hnone)
    rw [(hu.grows id).oneOf]
    exact fun hone => hone
  unnamed hcontainer hnone := h.unnamed (hu.isContainer.mp hcontainer) (hu.nameOf?_eq_none hnone)

/-- These schemas use only each other, and they stay as they are. -/
structure Quiet (P : SchemaId → Prop) (s t : Session) : Prop where
  ranked : ∃ rank, s.graph.Ranked rank
  objects : ∀ id, (s.graph.node id).isObject → (s.graph.node id).reference = none
  plain : s.PlainWrappers
  uses : s.graph.UsesWithin P
  lt : ∀ id, P id → id < s.graph.size
  steady : ∀ id, P id → s.Steady t id

lemma Quiet.later (h : Quiet P s t) (hu : Run env s u) : Quiet P u t where
  ranked := h.ranked.imp fun _ hrank => hrank.grows hu.grows hu.size_le
  objects id := hu.grows.plain_object (h.objects id)
  plain := hu.plainWrappers h.plain
  uses id other hid huses := h.uses id other hid (hu.grows.uses huses)
  lt id hid := Nat.lt_of_lt_of_le (h.lt id hid) hu.size_le
  steady id hid := (h.steady id hid).later hu

namespace Quiet

variable (h : Quiet P s t) (hrun : Run env s t) (hid : P id)

include h hrun

lemma isNullable (dialect : Dialect) (id : SchemaId) :
    t.graph.isNullable dialect id = s.graph.isNullable dialect id := by
  obtain ⟨rank, hrank⟩ := h.ranked
  exact Graph.isNullable_expands hrun.grows hrun.expands hrank hrun.size_le dialect id

include hid

lemma actual : t.graph.actual id = s.graph.actual id :=
  hrun.grows.actual_of_ended (h.steady id hid).ends

lemma isActualNullable (dialect : Dialect) :
    t.graph.isActualNullable dialect id = s.graph.isActualNullable dialect id := by
  rw [Graph.isActualNullable, Graph.isActualNullable, h.actual hrun hid, h.isNullable hrun]

lemma wrapper? : t.wrapper? id = s.wrapper? id := by
  cases hs : s.wrapper? id with
  | none => exact (h.steady id hid).unwrapped hs
  | some wrapper => exact hrun.wrapper? hs

lemma nameOf? (hcontainer : s.IsContainer id) : t.nameOf? id = s.nameOf? id := by
  cases hs : s.nameOf? id with
  | none => exact (h.steady id hid).unnamed hcontainer hs
  | some name => exact hrun.nameOf? hs

lemma isEnumeration : (t.graph.node id).isEnumeration = (s.graph.node id).isEnumeration := by
  cases hs : (s.graph.node id).isEnumeration with
  | true => exact (hrun.grows id).isEnumeration hs
  | false =>
    have hnone : (s.graph.node id).enumeration = [] := by simpa [Node.isEnumeration] using hs
    simp [Node.isEnumeration, (h.steady id hid).members hnone]

lemma isAny : (t.graph.node id).isAny = (s.graph.node id).isAny := by
  cases hs : (s.graph.node id).isAny with
  | false =>
    rw [← Bool.not_eq_true]
    intro hany
    rw [(hrun.grows id).isAny hany] at hs
    cases hs
  | true =>
    have hplain := hs
    simp only [Node.isAny, Bool.and_eq_true, List.isEmpty_iff, Option.isNone_iff_eq_none] at hplain
    have hmembers := (h.steady id hid).members hplain.1.2
    have hnone := (h.steady id hid).discriminator (.inl hs) hplain.2
    have hsame : t.graph.node id = s.graph.node id :=
      (hrun.grows id).eq_of_kept (hrun.parts_kept (h.lt id hid)) (hmembers.trans hplain.1.2.symm)
        (hnone.trans hplain.2.symm)
    rw [hsame, hs]

lemma removeNullability : t.graph.removeNullability id = s.graph.removeNullability id := by
  obtain ⟨rank, hrank⟩ := h.ranked
  rcases hrun.removeNullability_cases hrank (h.objects id) with heq | ⟨hone, hnone, hsome⟩
  · exact heq
  · exact absurd ((h.steady id hid).discriminator (.inr hone) hnone) hsome

lemma carrier : t.graph.carrier id = s.graph.carrier id := by
  rw [Graph.carrier, Graph.carrier, h.removeNullability hrun hid,
    h.actual hrun (h.uses.removeNullability hid)]

lemma isDefinitionType (inlineNamedAny : Bool) :
    t.graph.isDefinitionType inlineNamedAny id = s.graph.isDefinitionType inlineNamedAny id := by
  have hany := h.isAny hrun hid
  have henumeration := h.isEnumeration hrun hid
  obtain ⟨_, _, _, _, hnode⟩ := hrun.grows id
  unfold Graph.isDefinitionType
  simp only [hany, henumeration]
  rw [hnode]
  rfl

lemma resolvable (inlineNamedAny : Bool) :
    t.graph.resolvable inlineNamedAny id = s.graph.resolvable inlineNamedAny id := by
  have hbare := h.uses.removeNullability hid
  unfold Graph.resolvable
  simp only [h.removeNullability hrun hid, h.actual hrun hbare,
    h.isDefinitionType hrun (h.uses.actual hbare)]

lemma generatesType (inlineNamedAny : Bool) :
    t.graph.generatesType inlineNamedAny id = s.graph.generatesType inlineNamedAny id := by
  have hany := h.isAny hrun (h.uses.resolvable hid inlineNamedAny)
  obtain ⟨_, _, _, _, hnode⟩ := hrun.grows (s.graph.resolvable inlineNamedAny id)
  unfold Graph.generatesType
  simp only [h.resolvable hrun hid, hany]
  rw [hnode]
  rfl

end Quiet

end Session

end SchemaTypes
