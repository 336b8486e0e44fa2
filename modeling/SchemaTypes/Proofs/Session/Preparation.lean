import SchemaTypes.Proofs.Graph.Growth
import SchemaTypes.Proofs.Session.Operations

/-! What the preparation of a definition leaves for good: its wrapper, or that it has none. -/

namespace SchemaTypes

namespace Graph

variable {g : Graph} {id : SchemaId}

lemma removeNullability_of_oneOf (h : (g.node id).oneOf = []) : g.removeNullability id = id := by
  simp [removeNullability, solidAlternatives_of_oneOf h]

lemma actual_of_reference (h : (g.node id).reference = none) : g.actual id = id := by
  unfold actual
  cases g.size with
  | zero => rfl
  | succ steps => simp [follow, h]

lemma carrier_of_oneOf (h : (g.node id).oneOf = []) : g.carrier id = g.actual id := by
  rw [carrier, removeNullability_of_oneOf h]

end Graph

namespace Session

variable {env : Environment} {s t : Session} {id wrapper : SchemaId}

lemma lookup_append_self {wrappers : List (SchemaId × SchemaId)}
    (h : wrappers.lookup id = none) : (wrappers ++ [(id, wrapper)]).lookup id = some wrapper := by
  simp [List.lookup_append, h]

/-- The ways in which the preparation of a schema goes. -/
inductive Prepares (s : Session) (id : SchemaId) : SchemaId × Session → Prop
  | wrapped (wrapper : SchemaId) (h : s.wrapper? id = some wrapper) : Prepares s id (wrapper, s)
  | known (h : s.wrapper? id = none) (hprepared : id ∈ s.prepared) : Prepares s id (id, s)
  | expands (h : s.wrapper? id = none) (hprepared : id ∉ s.prepared)
      (hwrap : (s.graph.expandAlternatives id).wrapChoice id = none) :
      Prepares s id (id, { s with
        prepared := id :: s.prepared
        graph := s.graph.expandAlternatives id })
  | wraps (graph : Graph) (wrapper : SchemaId) (remappings : List Remapping)
      (h : s.wrapper? id = none) (hprepared : id ∉ s.prepared)
      (hwrap : (s.graph.expandAlternatives id).wrapChoice id = some (graph, wrapper, remappings)) :
      Prepares s id (wrapper, { s with
        prepared := id :: s.prepared
        graph
        wrappers := s.wrappers ++ [(id, wrapper)]
        remappings := s.remappings ++ remappings })

lemma prepares (s : Session) (id : SchemaId) : Prepares s id (s.prepare id) := by
  cases h : s.wrapper? id with
  | some wrapper =>
    rw [show s.prepare id = (wrapper, s) by simp only [prepare, h]]
    exact .wrapped wrapper h
  | none =>
    by_cases hprepared : id ∈ s.prepared
    · have heq : s.prepare id = (id, s) := by
        simp only [prepare, h, List.contains_iff_mem.mpr hprepared, if_true]
      rw [heq]
      exact .known h hprepared
    · have hcontains : s.prepared.contains id = false := by simpa using hprepared
      unfold prepare
      simp only [h, hcontains, Bool.false_eq_true, if_false]
      split
      · rename_i graph wrapper remappings hwrap
        exact .wraps graph wrapper remappings h hprepared hwrap
      · rename_i hwrap
        exact .expands h hprepared hwrap

lemma mem_prepared_of_prepare {other : SchemaId} (h : other ∈ (s.prepare id).2.prepared) :
    other = id ∨ other ∈ s.prepared := by
  have hprepares := s.prepares id
  generalize s.prepare id = result at hprepares h
  cases hprepares with
  | wrapped | known => exact .inr h
  | expands | wraps => exact List.mem_cons.mp h

lemma prepare_outcome (s : Session) (id : SchemaId) :
    (∃ wrapper, s.wrapper? id = some wrapper ∧ s.prepare id = (wrapper, s)) ∨
      (s.wrapper? id = none ∧ id ∈ s.prepared ∧ s.prepare id = (id, s)) ∨
      (s.wrapper? id = none ∧ id ∉ s.prepared ∧ (s.prepare id).2.prepared = id :: s.prepared ∧
        s.graph.Grows (s.prepare id).2.graph ∧
        (((s.prepare id).1 = id ∧ (s.prepare id).2.wrappers = s.wrappers) ∨
          ((s.prepare id).2.graph.node (s.prepare id).1).reference = none ∧
          ((s.prepare id).2.graph.node (s.prepare id).1).oneOf = [] ∧
          (s.prepare id).2.wrappers = s.wrappers ++ [(id, (s.prepare id).1)])) := by
  have hexpand := Graph.grows_expandAlternatives s.graph id
  have hprepares := s.prepares id
  generalize s.prepare id = result at hprepares ⊢
  cases hprepares with
  | wrapped wrapper h => exact .inl ⟨wrapper, h, rfl⟩
  | known h hprepared => exact .inr (.inl ⟨h, hprepared, rfl⟩)
  | expands h hprepared => exact .inr (.inr ⟨h, hprepared, rfl, hexpand, .inl ⟨rfl, rfl⟩⟩)
  | wraps graph wrapper remappings h hprepared hwrap =>
    have hgrows := Graph.grows_wrapChoice hwrap
    obtain ⟨rfl, _⟩ := Graph.wrapChoice_eq_some hwrap
    have hnode := hgrows (s.graph.expandAlternatives id).size
    rw [Graph.node_of_size_le (Nat.le_refl _)] at hnode
    exact .inr (.inr ⟨h, hprepared, rfl, hexpand.trans hgrows,
      .inr ⟨hnode.reference, hnode.oneOf, rfl⟩⟩)

/-- A schema that was prepared without getting a wrapper. -/
def Unwrapped (s : Session) (id : SchemaId) : Prop := id ∈ s.prepared ∧ s.wrapper? id = none

lemma prepare_settles {target : SchemaId} (h : s.prepare id = (target, t)) :
    t.wrapper? id = some target ∨ (target = id ∧ t.Unwrapped id) := by
  obtain ⟨rfl, rfl⟩ : (s.prepare id).1 = target ∧ (s.prepare id).2 = t := by simp [h]
  rcases s.prepare_outcome id with ⟨_, hsome, h⟩ | ⟨hnone, hprepared, h⟩ |
    ⟨hnone, _, hprepared, _, ⟨hid, hsame⟩ | ⟨_, _, hnew⟩⟩
  · rw [h]
    exact .inl hsome
  · rw [h]
    exact .inr ⟨rfl, hprepared, hnone⟩
  · refine .inr ⟨hid, by rw [hprepared]; exact List.mem_cons_self, ?_⟩
    rw [wrapper?, hsame]
    exact hnone
  · left
    rw [wrapper?, hnew]
    exact lookup_append_self hnone

lemma Step.prepare_cases (h : Step env s t) :
    (t.graph = s.graph ∧ t.wrappers = s.wrappers ∧ t.prepared = s.prepared) ∨
      ∃ id, t = (s.prepare id).2 := by
  cases h with
  | beginRegistration | endRegistration | beginExpansion | endExpansion | refuse | name =>
    exact .inl ⟨rfl, rfl, rfl⟩
  | prepare id => exact .inr ⟨id, rfl⟩

lemma Step.grows (h : Step env s t) : s.graph.Grows t.graph := by
  rcases h.prepare_cases with ⟨hgraph, _⟩ | ⟨id, rfl⟩
  · rw [hgraph]
    exact .refl _
  · rcases s.prepare_outcome id with ⟨_, _, h⟩ | ⟨_, _, h⟩ | ⟨_, _, _, h, _⟩
    · rw [h]
      exact .refl _
    · rw [h]
      exact .refl _
    · exact h

lemma Step.wrappers_prefix (h : Step env s t) : s.wrappers <+: t.wrappers := by
  rcases h.prepare_cases with ⟨_, hwrappers, _⟩ | ⟨id, rfl⟩
  · exact ⟨[], by rw [hwrappers, List.append_nil]⟩
  · rcases s.prepare_outcome id with ⟨_, _, h⟩ | ⟨_, _, h⟩ | ⟨_, _, _, _, ⟨_, h⟩ | ⟨_, _, h⟩⟩
    · exact ⟨[], by rw [h, List.append_nil]⟩
    · exact ⟨[], by rw [h, List.append_nil]⟩
    · exact ⟨[], by rw [h, List.append_nil]⟩
    · exact ⟨_, h.symm⟩

lemma Step.unwrapped (h : Step env s t) (hid : s.Unwrapped id) : t.Unwrapped id := by
  obtain ⟨hprepared, hwrapper⟩ := hid
  rcases h.prepare_cases with ⟨_, hwrappers, hsame⟩ | ⟨other, rfl⟩
  · exact ⟨hsame ▸ hprepared, by rw [wrapper?, hwrappers]; exact hwrapper⟩
  · rcases s.prepare_outcome other with ⟨_, _, h⟩ | ⟨_, _, h⟩ | ⟨_, hother, hnew, _, hcase⟩
    · rw [h]
      exact ⟨hprepared, hwrapper⟩
    · rw [h]
      exact ⟨hprepared, hwrapper⟩
    · have hne : id ≠ other := fun heq => hother (heq ▸ hprepared)
      refine ⟨by rw [hnew]; exact List.mem_cons_of_mem _ hprepared, ?_⟩
      rcases hcase with ⟨_, hwrappers⟩ | ⟨_, _, hwrappers⟩
      · rw [wrapper?, hwrappers]
        exact hwrapper
      · have hbeq : (id == other) = false := beq_false_of_ne hne
        have hlookup : s.wrappers.lookup id = none := hwrapper
        rw [wrapper?, hwrappers, List.lookup_append, hlookup]
        simp [List.lookup_cons, hbeq]

def PlainWrappers (s : Session) : Prop :=
  ∀ entry ∈ s.wrappers,
    (s.graph.node entry.2).reference = none ∧ (s.graph.node entry.2).oneOf = []

lemma PlainWrappers.start (g : Graph) : PlainWrappers { graph := g } := by
  simp [PlainWrappers]

lemma PlainWrappers.carrier (hs : s.PlainWrappers) (h : s.wrapper? id = some wrapper) :
    s.graph.carrier wrapper = wrapper := by
  obtain ⟨before, after, heq, _⟩ := List.lookup_eq_some_iff.mp h
  have hmem : (id, wrapper) ∈ s.wrappers := by simp [heq]
  obtain ⟨href, hone⟩ := hs _ hmem
  rw [Graph.carrier_of_oneOf hone, Graph.actual_of_reference href]

lemma Step.plainWrappers (h : Step env s t) (hs : s.PlainWrappers) : t.PlainWrappers := by
  have hkept : ∀ entry ∈ s.wrappers,
      (t.graph.node entry.2).reference = none ∧ (t.graph.node entry.2).oneOf = [] := by
    intro entry hentry
    have hgrows := h.grows entry.2
    rw [hgrows.reference, hgrows.oneOf]
    exact hs entry hentry
  rcases h.prepare_cases with ⟨_, hwrappers, _⟩ | ⟨id, rfl⟩
  · intro entry hentry
    exact hkept entry (hwrappers ▸ hentry)
  · intro entry hentry
    rcases s.prepare_outcome id with ⟨_, _, h⟩ | ⟨_, _, h⟩ | ⟨_, _, _, _, ⟨_, h⟩ | ⟨href, hone, h⟩⟩
    · exact hkept entry (by rw [h] at hentry; exact hentry)
    · exact hkept entry (by rw [h] at hentry; exact hentry)
    · exact hkept entry (h ▸ hentry)
    · rw [h] at hentry
      rcases List.mem_append.mp hentry with hentry | hentry
      · exact hkept entry hentry
      · rw [List.mem_singleton.mp hentry]
        exact ⟨href, hone⟩

lemma Run.grows (h : Run env s t) : s.graph.Grows t.graph :=
  h.keeps (fun hstep hgrows => hgrows.trans hstep.grows) (.refl _)

lemma Run.wrapper? (h : Run env s t) (hid : s.wrapper? id = some wrapper) :
    t.wrapper? id = some wrapper := by
  have hprefix : s.wrappers <+: t.wrappers :=
    h.keeps (fun hstep hprefix => hprefix.trans hstep.wrappers_prefix) (List.prefix_refl _)
  exact hprefix.lookup_eq_some hid

lemma Run.unwrapped (h : Run env s t) (hid : s.Unwrapped id) : t.Unwrapped id :=
  h.keeps Step.unwrapped hid

lemma Run.plainWrappers (h : Run env s t) (hs : s.PlainWrappers) : t.PlainWrappers :=
  h.keeps Step.plainWrappers hs

end Session

end SchemaTypes
