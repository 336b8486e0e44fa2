import SchemaTypes.Proofs.Graph.Expansion
import SchemaTypes.Proofs.Graph.Threading
import SchemaTypes.Proofs.Session.Hierarchies

/-! What a session does to the graph that it started with: alternatives become members once, the
discriminators of subtypes get entries for wrappers, and wrappers follow the nodes. -/

namespace SchemaTypes

namespace Graph

variable {g g' : Graph} {id : SchemaId}

lemma expandAlternatives_members (g : Graph) (id : SchemaId) :
    ((g.expandAlternatives id).node id).enumeration = (g.node id).enumeration ∨
      (g.node id).hasNoType ∧ 1 < (g.solidAlternatives id).length ∧
        ((g.expandAlternatives id).node id).enumeration =
          (g.node id).enumeration ++ (g.node id).alternativeMembers := by
  rcases g.expandAlternatives_cases id with heq | ⟨hno, hsolid, hlt, heq⟩ <;> rw [heq]
  · exact .inl rfl
  · rw [node_update_self hlt]
    exact .inr ⟨hno, hsolid, rfl⟩

lemma expandAlternatives_expanded (hno : (g.node id).hasNoType)
    (hsolid : 1 < (g.solidAlternatives id).length) :
    ((g.expandAlternatives id).node id).enumeration =
      (g.node id).enumeration ++ (g.node id).alternativeMembers := by
  have hone := oneOf_ne_nil_of_solid hsolid
  rw [expandAlternatives, if_pos (by simp [hno, hsolid]),
    node_update_self (lt_size_of_ne Node.oneOf hone)]
  rfl

lemma solidAlternatives_expands (hgrows : g.Grows g') (hexpands : g.Expands g')
    {rank : SchemaId → ℕ} (hrank : g.Ranked rank) (hsize : g.size ≤ g'.size) (id : SchemaId) :
    g'.solidAlternatives id = g.solidAlternatives id := by
  simp only [solidAlternatives, Node.alternatives, (hgrows id).oneOf,
    isNullable_expands hgrows hexpands hrank hsize]

end Graph

namespace Session

variable {env : Environment} {s t : Session} {g : Graph} {id : SchemaId}

lemma Step.expands (h : Step env s t) : s.graph.Expands t.graph := by
  rcases h.graph_cases with ⟨_, hgraph | ⟨id, hgraph⟩⟩ | ⟨id, d, hwraps⟩
  · rw [hgraph]
    exact .refl _
  · rw [hgraph]
    exact Graph.expands_expandAlternatives _ id
  · intro other
    rw [hwraps.members]
    exact Graph.expands_expandAlternatives _ id other

lemma Run.expands (h : Run env s t) : s.graph.Expands t.graph := by
  have hboth : s.graph.Grows t.graph ∧ s.graph.Expands t.graph := by
    refine h.keeps (fun hstep hs => ?_) ⟨.refl _, .refl _⟩
    exact ⟨hs.1.trans hstep.grows, hs.2.trans hs.1 hstep.expands⟩
  exact hboth.2

lemma Step.members_kept (h : Step env s t) (hid : id ∈ s.prepared) :
    id ∈ t.prepared ∧ (t.graph.node id).enumeration = (s.graph.node id).enumeration := by
  rcases h.prepare_cases with ⟨hgraph, _, hprepared⟩ | ⟨other, rfl⟩
  · rw [hgraph, hprepared]
    exact ⟨hid, rfl⟩
  · rcases s.prepare_outcome other with ⟨_, _, h⟩ | ⟨_, _, h⟩ | ⟨_, hother, hprepared, _, _⟩
    · rw [h]
      exact ⟨hid, rfl⟩
    · rw [h]
      exact ⟨hid, rfl⟩
    · -- Alternatives become members only when a schema is prepared for the first time.
      have hne : id ≠ other := fun heq => hother (heq ▸ hid)
      refine ⟨by rw [hprepared]; exact List.mem_cons_of_mem _ hid, ?_⟩
      rcases s.prepare_wraps other with ⟨_, hgraph | hgraph⟩ | ⟨d, hwraps⟩
      · rw [hgraph]
      · rw [hgraph, Graph.expandAlternatives_of_ne hne]
      · rw [hwraps.members, Graph.expandAlternatives_of_ne hne]

lemma Step.parts_kept (h : Step env s t) (hid : id < s.graph.size) :
    (t.graph.node id).allOf = (s.graph.node id).allOf := by
  rcases h.graph_cases with ⟨_, hgraph | ⟨other, hgraph⟩⟩ | ⟨other, d, hwraps⟩
  · rw [hgraph]
  · rw [hgraph]
    exact Graph.expandAlternatives_keeps _ Node.allOf (fun _ _ => rfl) other id
  · exact hwraps.graph.others id (Nat.ne_of_lt hid)

lemma Run.parts_kept (h : Run env s t) (hid : id < s.graph.size) :
    (t.graph.node id).allOf = (s.graph.node id).allOf := by
  have hboth : id < t.graph.size ∧ (t.graph.node id).allOf = (s.graph.node id).allOf := by
    refine h.keeps (fun hstep hs => ?_) ⟨hid, rfl⟩
    exact ⟨Nat.lt_of_lt_of_le hs.1 hstep.size_le, (hstep.parts_kept hs.1).trans hs.2⟩
  exact hboth.2

lemma prepare_members (s : Session) (id other : SchemaId) :
    ((s.prepare id).2.graph.node other).enumeration = (s.graph.node other).enumeration ∨
      other = id ∧ id ∉ s.prepared ∧ id ∈ (s.prepare id).2.prepared ∧
        (s.graph.node id).hasNoType ∧ 1 < (s.graph.solidAlternatives id).length ∧
        ((s.prepare id).2.graph.node id).enumeration =
          (s.graph.node id).enumeration ++ (s.graph.node id).alternativeMembers := by
  have hprepares := s.prepares id
  generalize s.prepare id = result at hprepares ⊢
  have hexpand (hprepared : id ∉ s.prepared) {t : Session} (ht : id ∈ t.prepared)
      (hgraph : ∀ other, (t.graph.node other).enumeration =
        ((s.graph.expandAlternatives id).node other).enumeration) :
      (t.graph.node other).enumeration = (s.graph.node other).enumeration ∨
        other = id ∧ id ∉ s.prepared ∧ id ∈ t.prepared ∧
          (s.graph.node id).hasNoType ∧ 1 < (s.graph.solidAlternatives id).length ∧
          (t.graph.node id).enumeration =
            (s.graph.node id).enumeration ++ (s.graph.node id).alternativeMembers := by
    by_cases hother : other = id
    · subst hother
      rw [hgraph]
      refine (s.graph.expandAlternatives_members other).imp_right fun h => ?_
      exact ⟨rfl, hprepared, ht, h⟩
    · rw [hgraph other, Graph.expandAlternatives_of_ne hother]
      exact .inl rfl
  cases hprepares with
  | wrapped => exact .inl rfl
  | known => exact .inl rfl
  | expands _ hprepared => exact hexpand hprepared List.mem_cons_self fun _ => rfl
  | wraps graph wrapper remappings _ hprepared hwrap =>
    obtain ⟨_, _, _, _, _, hmembers, _⟩ := Graph.wrapChoice_wraps hwrap
    exact hexpand hprepared List.mem_cons_self hmembers

lemma prepare_discriminator (s : Session) (id : SchemaId) :
    ((s.prepare id).2.wrappers = s.wrappers ∧
        ∀ other, ((s.prepare id).2.graph.node other).discriminator =
          (s.graph.node other).discriminator) ∨
      ∃ d, Wraps id d s (s.prepare id).2 ∧
        ∀ other ≤ s.graph.size, ((s.prepare id).2.graph.node other).discriminator =
          Discriminator.thread d.property s.graph.size
            (s.graph.valuesFor (s.graph.size + 1) d.mapping other)
            (s.graph.node other).discriminator := by
  have hgrows := Graph.grows_expandAlternatives s.graph id
  have hsize := Graph.expandAlternatives_size s.graph id
  have hkept := Graph.expandAlternatives_keeps s.graph Node.discriminator (fun _ _ => rfl) id
  have hwraps := s.prepare_wraps id
  have hprepares := s.prepares id
  generalize s.prepare id = result at hwraps hprepares ⊢
  cases hprepares with
  | wrapped => exact .inl ⟨rfl, fun _ => rfl⟩
  | known => exact .inl ⟨rfl, fun _ => rfl⟩
  | expands => exact .inl ⟨rfl, hkept⟩
  | wraps graph wrapper remappings _ _ hwrap =>
    right
    rcases hwraps with ⟨hsame, _⟩ | ⟨d, hwraps⟩
    · exact absurd hsame (by simp)
    obtain ⟨d', hd', hthread⟩ := Graph.wrapChoice_discriminator hwrap
    rw [Graph.actualDiscriminator, Graph.actualNode, hkept, hgrows.actual hsize, hkept] at hd'
    obtain rfl : d = d' := Option.some.inj (hwraps.discriminator.symm.trans hd')
    simp only [hsize, hgrows.valuesFor, hkept] at hthread
    exact ⟨d, hwraps, hthread⟩

lemma Step.wrapped_prepared (h : Step env s t)
    (hs : ∀ entry ∈ s.wrappers, entry.1 ∈ s.prepared) :
    ∀ entry ∈ t.wrappers, entry.1 ∈ t.prepared := by
  rcases h.prepare_cases with ⟨_, hwrappers, hprepared⟩ | ⟨base, rfl⟩
  · rwa [hwrappers, hprepared]
  · have hprepares := s.prepares base
    generalize s.prepare base = result at hprepares
    cases hprepares with
    | wrapped | known => exact hs
    | expands => exact fun entry hentry => List.mem_cons_of_mem _ (hs entry hentry)
    | wraps =>
      intro entry hentry
      rcases List.mem_append.mp hentry with hentry | hentry
      · exact List.mem_cons_of_mem _ (hs entry hentry)
      · rw [List.mem_singleton.mp hentry]
        exact List.mem_cons_self

lemma Run.wrapped_prepared (h : Run env { graph := g } s) {wrapper : SchemaId}
    (hwrapper : s.wrapper? id = some wrapper) :
    id ∈ s.prepared := by
  have hall : ∀ entry ∈ s.wrappers, entry.1 ∈ s.prepared := h.keeps Step.wrapped_prepared (by simp)
  obtain ⟨before, after, heq, _⟩ := List.lookup_eq_some_iff.mp hwrapper
  exact hall (id, wrapper) (by simp [heq])

lemma Run.prepared_subset (h : Run env s t) : s.prepared ⊆ t.prepared :=
  h.keeps (fun hstep hsub _ hid => (hstep.members_kept (hsub hid)).1) (List.Subset.refl _)

/-- What the session has made of the nodes that it started with. -/
structure Reshapes (g : Graph) (s : Session) : Prop where
  members : ∀ id, (s.graph.node id).enumeration = (g.node id).enumeration ∨
    id ∈ s.prepared ∧ (g.node id).hasNoType ∧ 1 < (g.solidAlternatives id).length ∧
      (s.graph.node id).enumeration = (g.node id).enumeration ++ (g.node id).alternativeMembers
  threads : ∀ id, Discriminator.Threads (s.wrappers.map (·.2)) (g.node id).discriminator
    (s.graph.node id).discriminator

lemma Reshapes.start (g : Graph) : Reshapes g { graph := g } :=
  ⟨fun _ => .inl rfl, fun _ => .refl _ _⟩

lemma prepare_reshapes_members (hs : Extends g s) (hexpands : g.Expands s.graph)
    {rank : SchemaId → ℕ} (hrank : g.Ranked rank) (hr : Reshapes g s) (base id : SchemaId)
    (hkept : id ∈ s.prepared → id ∈ (s.prepare base).2.prepared) :
    ((s.prepare base).2.graph.node id).enumeration = (g.node id).enumeration ∨
      id ∈ (s.prepare base).2.prepared ∧ (g.node id).hasNoType ∧
        1 < (g.solidAlternatives id).length ∧
        ((s.prepare base).2.graph.node id).enumeration =
          (g.node id).enumeration ++ (g.node id).alternativeMembers := by
  rcases s.prepare_members base id with heq | ⟨rfl, hnew, hprepared, hno, hsolid, heq⟩
  · rw [heq]
    exact (hr.members id).imp_right fun ⟨hprepared, hrest⟩ => ⟨hkept hprepared, hrest⟩
  · -- It is prepared for the first time, so that its members are those it had at first.
    have hloaded := (hr.members id).resolve_right fun h => hnew h.1
    rw [Node.hasNoType, (hs.grows id).types] at hno
    rw [Graph.solidAlternatives_expands hs.grows hexpands hrank hs.le_size] at hsolid
    rw [heq, hloaded, Node.alternativeMembers, (hs.grows id).oneOf]
    exact .inr ⟨hprepared, hno, hsolid, rfl⟩

lemma prepare_threads (s : Session) (base id : SchemaId) :
    Discriminator.Threads ((s.prepare base).2.wrappers.map (·.2))
      (s.graph.node id).discriminator ((s.prepare base).2.graph.node id).discriminator := by
  rcases s.prepare_discriminator base with ⟨_, heq⟩ | ⟨d, hwraps, hthread⟩
  · rw [heq]
    exact .refl _ _
  by_cases hle : id ≤ s.graph.size
  · rw [hthread id hle]
    refine (Discriminator.thread_threads _ _ _ _).mono fun wrapper hwrapper => ?_
    rw [List.mem_singleton.mp hwrapper]
    exact List.mem_map_of_mem hwraps.new_mem
  · -- Neither graph has a node with this number.
    have hlt : s.graph.size < id := Nat.lt_of_not_le hle
    have hafter : (s.prepare base).2.graph.size ≤ id := by
      rw [hwraps.graph.size]
      exact hlt
    rw [Graph.node_of_size_le (Nat.le_of_lt hlt), Graph.node_of_size_le hafter]
    exact .refl _ _

lemma Step.reshapes (h : Step env s t) (hs : Extends g s) (hexpands : g.Expands s.graph)
    {rank : SchemaId → ℕ} (hrank : g.Ranked rank) (hr : Reshapes g s) : Reshapes g t := by
  rcases h.prepare_cases with ⟨hgraph, hwrappers, hprepared⟩ | ⟨base, rfl⟩
  · obtain ⟨hmembers, hthreads⟩ := hr
    constructor <;> simpa only [hgraph, hwrappers, hprepared]
  constructor
  case members =>
    exact fun id => prepare_reshapes_members hs hexpands hrank hr base id fun hid =>
      (h.members_kept hid).1
  case threads =>
    intro id
    have hsub : s.wrappers.map (·.2) ⊆ (s.prepare base).2.wrappers.map (·.2) :=
      List.map_subset _ h.wrappers_prefix.subset
    exact (hr.threads id).trans (s.prepare_threads base id) hsub

lemma Run.reshapes (h : Run env { graph := g } s) (hg : g.Closed) {rank : SchemaId → ℕ}
    (hrank : g.Ranked rank) : Extends g s ∧ Reshapes g s := by
  have hall : g.Expands s.graph ∧ Extends g s ∧ Reshapes g s := by
    refine h.keeps (fun hstep hs => ?_) ⟨.refl g, .start hg, .start g⟩
    obtain ⟨hexpands, hextends, hreshapes⟩ := hs
    exact ⟨hexpands.trans hextends.grows hstep.expands, hstep.extends hextends,
      hstep.reshapes hextends hexpands hrank hreshapes⟩
  exact hall.2

lemma Step.prepared_cases (h : Step env s t) (hid : id ∈ t.prepared) :
    id ∈ s.prepared ∨
      ∀ other, (t.graph.node other).enumeration =
        ((s.graph.expandAlternatives id).node other).enumeration := by
  rcases h.prepare_cases with ⟨_, _, hprepared⟩ | ⟨base, rfl⟩
  · exact .inl (hprepared ▸ hid)
  · have hprepares := s.prepares base
    generalize s.prepare base = result at hprepares hid
    cases hprepares with
    | wrapped | known => exact .inl hid
    | expands =>
      rcases List.mem_cons.mp hid with rfl | hid
      · exact .inr fun _ => rfl
      · exact .inl hid
    | wraps graph wrapper remappings _ _ hwrap =>
      rcases List.mem_cons.mp hid with rfl | hid
      · obtain ⟨_, _, _, _, _, hmembers, _⟩ := Graph.wrapChoice_wraps hwrap
        exact .inr hmembers
      · exact .inl hid

/-- A schema without a type that has several alternatives gets them for members when it is
prepared. -/
lemma Run.members_of_prepared (h : Run env { graph := g } s) (hg : g.Closed) {rank : SchemaId → ℕ}
    (hrank : g.Ranked rank) (hid : id ∈ s.prepared) (hno : (g.node id).hasNoType)
    (hsolid : 1 < (g.solidAlternatives id).length) :
    (s.graph.node id).enumeration = (g.node id).enumeration ++ (g.node id).alternativeMembers := by
  induction h with
  | refl => cases hid
  | @tail s t hbegin hstep ih =>
    have hrun : Run env { graph := g } s := hbegin
    obtain ⟨hs, hreshapes⟩ := hrun.reshapes hg hrank
    by_cases hbefore : id ∈ s.prepared
    · rw [(hstep.members_kept hbefore).2, ih hbefore]
    · -- It is prepared in this step, so that its members were those it had at first.
      have hmembers := (hstep.prepared_cases hid).resolve_left hbefore
      have hloaded := (hreshapes.members id).resolve_right fun h => hbefore h.1
      have hno' : (s.graph.node id).hasNoType := by rwa [Node.hasNoType, (hs.grows id).types]
      have hsolid' : 1 < (s.graph.solidAlternatives id).length := by
        rwa [Graph.solidAlternatives_expands hs.grows hrun.expands hrank hs.le_size]
      rw [hmembers, Graph.expandAlternatives_expanded hno' hsolid', hloaded,
        Node.alternativeMembers, (hs.grows id).oneOf, Node.alternativeMembers]

end Session

end SchemaTypes
