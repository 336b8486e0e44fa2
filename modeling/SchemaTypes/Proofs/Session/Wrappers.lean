import SchemaTypes.Proofs.Graph.Wrapping
import SchemaTypes.Proofs.Session.Preparation

/-! The graph of a session has the nodes of the graph that it started with and then its wrappers,
in their order. As no schema gets two wrappers, the graph at most doubles. -/

namespace SchemaTypes

namespace Session

variable {env : Environment} {s t : Session} {g : Graph} {id wrapper : SchemaId}

/-- One more wrapper, for the alternatives of `id`. -/
structure Wraps (id : SchemaId) (d : Discriminator SchemaId) (s t : Session) : Prop where
  fresh : s.wrapper? id = none
  oneOf : (s.graph.node id).oneOf ≠ []
  discriminator : s.graph.actualDiscriminator id = some d
  wrappers : t.wrappers = s.wrappers ++ [(id, s.graph.size)]
  graph : Graph.WrapsChoice id
    (d.mapping.map fun entry => s.graph.follow (s.graph.size + 1) entry.2) s.graph t.graph
  members : ∀ other, (t.graph.node other).enumeration =
    ((s.graph.expandAlternatives id).node other).enumeration
  closed : s.graph.Closed → t.graph.Closed

section

variable {d : Discriminator SchemaId} (hwraps : Wraps id d s t)

include hwraps

lemma Wraps.wrappers_subset : s.wrappers ⊆ t.wrappers := by
  rw [hwraps.wrappers]
  exact List.subset_append_left _ _

lemma Wraps.new_mem : (id, s.graph.size) ∈ t.wrappers := by
  rw [hwraps.wrappers]
  exact List.mem_append_right _ (List.mem_singleton.mpr rfl)

lemma Wraps.mem_or_new {entry : SchemaId × SchemaId} (hentry : entry ∈ t.wrappers) :
    entry ∈ s.wrappers ∨ entry = (id, s.graph.size) := by
  rw [hwraps.wrappers] at hentry
  exact (List.mem_append.mp hentry).imp_right List.mem_singleton.mp

end

lemma prepare_wraps (s : Session) (id : SchemaId) :
    ((s.prepare id).2.wrappers = s.wrappers ∧ ((s.prepare id).2.graph = s.graph ∨
        (s.prepare id).2.graph = s.graph.expandAlternatives id)) ∨
      ∃ d, Wraps id d s (s.prepare id).2 := by
  have hexpand := Graph.grows_expandAlternatives s.graph id
  have hsize := Graph.expandAlternatives_size s.graph id
  have hkept := Graph.expandAlternatives_keeps s.graph Node.discriminator (fun _ _ => rfl) id
  have hprepares := s.prepares id
  generalize s.prepare id = result at hprepares ⊢
  cases hprepares with
  | wrapped => exact .inl ⟨rfl, .inl rfl⟩
  | known => exact .inl ⟨rfl, .inl rfl⟩
  | expands => exact .inl ⟨rfl, .inr rfl⟩
  | wraps graph wrapper remappings h _ hwrap =>
    right
    obtain ⟨rfl, hone, d, hd, hwraps, hmembers, hclosed⟩ := Graph.wrapChoice_wraps hwrap
    refine ⟨d, h, ?_, ?_, by rw [hsize], ?_, hmembers,
      fun h => hclosed (h.expandAlternatives id)⟩
    · rwa [← (hexpand id).oneOf]
    · rwa [Graph.actualDiscriminator, Graph.actualNode, hkept, hexpand.actual hsize, hkept] at hd
    · simp only [hexpand.follow, hsize] at hwraps
      exact hwraps.of_expandAlternatives

lemma prepare_wrappers (s : Session) (id : SchemaId) :
    (s.prepare id).2.wrappers = s.wrappers ∨
      s.wrapper? id = none ∧ (s.prepare id).1 = s.graph.size ∧
        (s.prepare id).2.wrappers = s.wrappers ++ [(id, s.graph.size)] := by
  have hprepares := s.prepares id
  generalize s.prepare id = result at hprepares ⊢
  cases hprepares with
  | wrapped | known | expands => exact .inl rfl
  | wraps graph wrapper remappings h _ hwrap =>
    obtain ⟨rfl, _⟩ := Graph.wrapChoice_wraps hwrap
    rw [Graph.expandAlternatives_size]
    exact .inr ⟨h, rfl, rfl⟩

lemma Step.graph_cases (h : Step env s t) :
    (t.wrappers = s.wrappers ∧
        (t.graph = s.graph ∨ ∃ id, t.graph = s.graph.expandAlternatives id)) ∨
      ∃ id d, Wraps id d s t := by
  rcases h.prepare_cases with ⟨hgraph, hwrappers, _⟩ | ⟨id, rfl⟩
  · exact .inl ⟨hwrappers, .inl hgraph⟩
  · rcases s.prepare_wraps id with ⟨hwrappers, hgraph⟩ | ⟨d, hwraps⟩
    · exact .inl ⟨hwrappers, hgraph.imp_right fun h => ⟨id, h⟩⟩
    · exact .inr ⟨id, d, hwraps⟩

/-- The graph of the session is this graph with the wrappers added. -/
structure Extends (g : Graph) (s : Session) : Prop where
  grows : g.Grows s.graph
  closed : s.graph.Closed
  size : s.graph.size = g.size + s.wrappers.length
  numbers : s.wrappers.map (·.2) = List.range' g.size s.wrappers.length
  bases : ∀ entry ∈ s.wrappers, (g.node entry.1).oneOf ≠ []
  bases_nodup : (s.wrappers.map (·.1)).Nodup

lemma Extends.start (hg : g.Closed) : Extends g { graph := g } :=
  ⟨.refl g, hg, rfl, rfl, by simp, List.nodup_nil⟩

lemma Extends.le_size (hs : Extends g s) : g.size ≤ s.graph.size := by
  rw [hs.size]
  exact Nat.le_add_right _ _

lemma Extends.congr (hs : Extends g s) (hgraph : t.graph = s.graph)
    (hwrappers : t.wrappers = s.wrappers) : Extends g t := by
  obtain ⟨h₁, h₂, h₃, h₄, h₅, h₆⟩ := hs
  constructor <;> simpa only [hgraph, hwrappers]

lemma wrapper?_eq_none : s.wrapper? id = none ↔ id ∉ s.wrappers.map (·.1) :=
  Entries.lookup_eq_none

lemma Extends.base_lt (hs : Extends g s) {entry : SchemaId × SchemaId} (h : entry ∈ s.wrappers) :
    entry.1 < g.size := Graph.lt_size_of_ne Node.oneOf (hs.bases entry h)

lemma Wraps.extends {d : Discriminator SchemaId} (hwraps : Wraps id d s t) (hs : Extends g s) :
    Extends g t := by
  have hfresh := wrapper?_eq_none.mp hwraps.fresh
  have hlength : t.wrappers.length = s.wrappers.length + 1 := by
    rw [hwraps.wrappers, List.length_append, List.length_singleton]
  refine ⟨hs.grows.trans hwraps.graph.grows, hwraps.closed hs.closed, ?_, ?_, ?_, ?_⟩
  · rw [hwraps.graph.size, hs.size, hlength, Nat.add_assoc]
  · rw [hlength, List.range'_concat, hwraps.wrappers, List.map_append, hs.numbers, hs.size]
    simp
  · intro entry hentry
    rcases hwraps.mem_or_new hentry with hentry | rfl
    · exact hs.bases entry hentry
    · rw [← (hs.grows id).oneOf]
      exact hwraps.oneOf
  · rw [hwraps.wrappers, List.map_append]
    exact hs.bases_nodup.append (List.nodup_singleton _) (by simpa using hfresh)

lemma Step.extends (h : Step env s t) (hs : Extends g s) : Extends g t := by
  rcases h.graph_cases with ⟨hwrappers, hgraph | ⟨id, hgraph⟩⟩ | ⟨id, d, hwraps⟩
  · exact hs.congr hgraph hwrappers
  · obtain ⟨hgrows, h₁, h₂, h₃, h₄, h₅⟩ := hs
    refine ⟨hgrows.trans h.grows, ?_, ?_, ?_, ?_, ?_⟩
    · rw [hgraph]
      exact h₁.expandAlternatives id
    · rw [hgraph, hwrappers, Graph.expandAlternatives_size, h₂]
    all_goals simpa only [hwrappers]
  · exact hwraps.extends hs

lemma Run.extends (h : Run env s t) (hs : Extends g s) : Extends g t :=
  h.keeps Step.extends hs

lemma Step.size_le (h : Step env s t) : s.graph.size ≤ t.graph.size := by
  rcases h.graph_cases with ⟨_, hgraph | ⟨id, hgraph⟩⟩ | ⟨id, d, hwraps⟩
  · exact Nat.le_of_eq (by rw [hgraph])
  · exact Nat.le_of_eq (by rw [hgraph, Graph.expandAlternatives_size])
  · exact Nat.le_of_succ_le (Nat.le_of_eq hwraps.graph.size.symm)

lemma Run.size_le (h : Run env s t) : s.graph.size ≤ t.graph.size :=
  h.keeps (fun hstep hle => Nat.le_trans hle hstep.size_le) (Nat.le_refl _)

lemma Extends.size_le (hs : Extends g s) : s.graph.size ≤ 2 * g.size := by
  have hle : (s.wrappers.map (·.1)).length ≤ g.size := by
    refine length_le_of_lt hs.bases_nodup fun id hid => ?_
    obtain ⟨entry, hentry, rfl⟩ := List.mem_map.mp hid
    exact hs.base_lt hentry
  rw [List.length_map] at hle
  rw [hs.size]
  omega

lemma Extends.wrapper_range (hs : Extends g s) {entry : SchemaId × SchemaId}
    (h : entry ∈ s.wrappers) : g.size ≤ entry.2 ∧ entry.2 < s.graph.size := by
  have hmem : entry.2 ∈ s.wrappers.map (·.2) := List.mem_map_of_mem h
  rw [hs.numbers, List.mem_range'_1] at hmem
  rwa [hs.size]

lemma Extends.wrapper?_eq_some (hs : Extends g s) :
    s.wrapper? id = some wrapper ↔ (id, wrapper) ∈ s.wrappers := by
  constructor
  · intro h
    obtain ⟨before, after, heq, _⟩ := List.lookup_eq_some_iff.mp h
    simp [heq]
  · exact Entries.lookup_of_mem hs.bases_nodup

lemma Extends.wrapper?_lt (hs : Extends g s) (h : s.wrapper? id = some wrapper) :
    wrapper < s.graph.size := (hs.wrapper_range (hs.wrapper?_eq_some.mp h)).2

lemma Extends.lt_of_types (hs : Extends g s) (h : (s.graph.node id).types ≠ []) : id < g.size := by
  -- A wrapper has no type.
  rw [(hs.grows id).types] at h
  exact Graph.lt_size_of_ne Node.types h

lemma Extends.node_empty (hs : Extends g s) (hid : g.size ≤ id) :
    (s.graph.node id).definitions = [] := by
  rw [(hs.grows id).definitions, Graph.node_of_size_le hid]

lemma Extends.size_le_wrapper (hs : Extends g s) (h : s.wrapper? id = some wrapper) :
    g.size ≤ wrapper := (hs.wrapper_range (hs.wrapper?_eq_some.mp h)).1

lemma Extends.wrapper?_inj (hs : Extends g s) {other : SchemaId}
    (h : s.wrapper? id = some wrapper) (hother : s.wrapper? other = some wrapper) :
    id = other := by
  have hnodup : (s.wrappers.map (·.2)).Nodup := by
    rw [hs.numbers]
    exact List.nodup_range'
  have heq := List.inj_on_of_nodup_map hnodup (hs.wrapper?_eq_some.mp h)
    (hs.wrapper?_eq_some.mp hother) rfl
  exact congrArg Prod.fst heq

lemma prepare_target_lt (hs : Extends g s)
    (hdef : s.graph.isDefinitionType env.resolver.inlineNamedAny id) (hid : id < s.graph.size) :
    (s.prepare id).1 < (s.prepare id).2.graph.size := by
  have hstep : Step env s (s.prepare id).2 := .prepare id hdef
  rcases s.prepare_outcome id with ⟨wrapper, hsome, h⟩ | ⟨_, _, h⟩ | ⟨_, _, _, _, h⟩
  · rw [h]
    exact hs.wrapper?_lt hsome
  · rw [h]
    exact hid
  · rcases h with ⟨hsame, _⟩ | ⟨_, _, hwrappers⟩
    · rw [hsame]
      exact Nat.lt_of_lt_of_le hid hstep.size_le
    · have hmem : (id, (s.prepare id).1) ∈ (s.prepare id).2.wrappers := by
        rw [hwrappers]
        exact List.mem_append_right _ (List.mem_singleton.mpr rfl)
      exact ((hstep.extends hs).wrapper_range hmem).2

end Session

end SchemaTypes
