import SchemaTypes.Proofs.TypeScript.Elementary
import SchemaTypes.Proofs.TypeScript.NamingPolicies
import SchemaTypes.Proofs.Session.Changes

/-! Choices among the definitions and in place. A definition that was prepared has its alternatives
as members; a schema that no definition leads to is not prepared and has none. -/

namespace SchemaTypes

open Session SessionM

lemma Graph.expandAlternatives_schema {g : Graph} {id : SchemaId} (hno : (g.node id).hasNoType)
    (hsolid : 1 < (g.solidAlternatives id).length) :
    ((g.expandAlternatives id).node id).enumeration.any Member.isSchema := by
  obtain ⟨alternative, hmem⟩ := List.exists_mem_of_length_pos (Nat.zero_lt_of_lt hsolid)
  have hone : some alternative ∈ (g.node id).oneOf :=
    mem_alternatives.mp (List.mem_of_mem_filter hmem)
  rw [expandAlternatives_expanded hno hsolid, List.any_append, Bool.or_eq_true]
  refine .inr (List.any_eq_true.mpr ⟨.schema alternative, ?_, rfl⟩)
  exact List.mem_map.mpr ⟨some alternative, hone, rfl⟩

namespace Session

variable {env : Environment} {s t : Session} {g : Graph} {id wrapper : SchemaId}
  {rank : SchemaId → ℕ}

lemma prepare_expands (hnew : id ∉ s.prepared) (hprepared : id ∈ (s.prepare id).2.prepared) :
    ((s.prepare id).2.graph.node id).enumeration =
      ((s.graph.expandAlternatives id).node id).enumeration := by
  have hprepares := s.prepares id
  generalize s.prepare id = result at hprepares hprepared
  cases hprepares with
  | wrapped | known => exact absurd hprepared hnew
  | expands => rfl
  | wraps graph wrapper remappings _ _ hwrap =>
    obtain ⟨_, _, _, _, _, hmembers, _⟩ := Graph.wrapChoice_wraps hwrap
    exact hmembers id

/-- Choices without a type that were prepared have schemas among their members. -/
def Expanded (g : Graph) (s : Session) : Prop :=
  ∀ id ∈ s.prepared, (g.node id).hasNoType → 1 < (g.solidAlternatives id).length →
    (s.graph.node id).enumeration.any Member.isSchema

lemma Step.expanded (h : Step env s t) (hrank : g.Ranked rank) (hrun : Run env { graph := g } s)
    (hs : Expanded g s) : Expanded g t := by
  intro id hid hno hsolid
  by_cases hold : id ∈ s.prepared
  · rw [(h.members_kept hold).2]
    exact hs id hold hno hsolid
  rcases h.prepare_cases with ⟨_, _, hprepared⟩ | ⟨base, rfl⟩
  · rw [hprepared] at hid
    exact absurd hid hold
  · obtain rfl := (mem_prepared_of_prepare hid).resolve_right hold
    have hgrows : g.Grows s.graph := hrun.grows
    rw [prepare_expands hold hid]
    apply Graph.expandAlternatives_schema
    · rwa [Node.hasNoType, (hgrows id).types]
    · rwa [Graph.solidAlternatives_expands hgrows hrun.expands hrank hrun.size_le]

lemma Run.expanded (h : Run env { graph := g } s) (hrank : g.Ranked rank) : Expanded g s := by
  induction h with
  | refl => exact fun id hid => absurd hid List.not_mem_nil
  | tail hfirst hstep ih => exact hstep.expanded hrank hfirst ih

end Session

namespace Document

variable {root : Keywords Schema} {d : Document} {env : Environment} {s : Session} {path : Path}
  {t : Schema}

lemma Represents.follow_target (h : d.Represents root) (hat : (Schema.inline root).At path t)
    (hpath : path = [] ∨ path.isDefinition) (steps : ℕ) :
    ∃ path' t', (Schema.inline root).At path' t' ∧ (path' = [] ∨ path'.isDefinition) ∧
      d.graph.follow steps (root.number path) = root.number path' := by
  induction steps generalizing path t with
  | zero => exact ⟨path, t, hat, hpath, rfl⟩
  | succ steps ih =>
    have hnode := h.node path t hat
    rw [Graph.follow]
    cases t with
    | ref target =>
      obtain ⟨id, ⟨path', t', _, _, hat', hpath', rfl⟩, hreference⟩ := hnode
      simp only [hreference]
      exact ih hat' hpath'
    | inline k =>
      simp only [hnode.1.reference]
      exact ⟨path, _, hat, hpath, rfl⟩

lemma Represents.definition_at (h : d.Represents root) {owner : SchemaId}
    {entry : String × SchemaId} (hentry : entry ∈ (d.graph.node owner).definitions) :
    ∃ path t, (Schema.inline root).At path t ∧ path.isDefinition ∧
      entry.2 = root.number path := by
  have hlt : owner < d.graph.size :=
    Graph.lt_size_of_ne Node.definitions (List.ne_nil_of_mem hentry)
  obtain ⟨path, t, hat, rfl⟩ := h.number_surj owner hlt
  have hnode := h.node path t hat
  cases t with
  | ref target =>
    obtain ⟨_, _, hnode⟩ := hnode
    rw [hnode] at hentry
    cases hentry
  | inline k =>
    have hmem := hnode.1.definitions_sublist.subset hentry
    obtain ⟨⟨group, entries⟩, hgroup, hmem⟩ := List.mem_flatMap.mp hmem
    obtain ⟨⟨name, t⟩, ht, rfl⟩ := List.mem_map.mp hmem
    refine ⟨_, t, hat.concat (Keywords.Child.definition hgroup ht).mem_children, ?_, rfl⟩
    simp [Path.isDefinition, Place.isDefinition]

lemma emit_traced {files : List GeneratedFile}
    (hemit : d.emit env { graph := d.graph } = (.ok files, s)) :
    Traced env d.graph
      (fun definition => ∃ owner, ∃ entry ∈ (d.graph.node owner).definitions,
        entry.2 = definition) s := by
  let b : Bond env env := .diagonal env d.graph
    (fun definition => ∃ owner, ∃ entry ∈ (d.graph.node owner).definitions, entry.2 = definition)
    fun owner entry hentry => ⟨owner, entry, hentry, rfl⟩
  have hR : b.related { graph := d.graph } { graph := d.graph } :=
    ⟨rfl, .start env d.graph _⟩
  have hall : b.InStep { graph := d.graph } { graph := d.graph } d.emit d.emit
      fun _ _ _ _ => True := by
    refine (register_inStep hR fun entry hentry => ⟨d.root, entry, hentry, rfl⟩).bind
      fun _ _ _ _ _ _ hR' _ => ?_
    exact (Bond.emit_inStep hR').bind fun _ _ _ _ _ _ hR'' _ => .pure hR'' trivial
  have hlast := hall.related.2
  rwa [hemit] at hlast

lemma Represents.unprepared (h : d.Represents root) {files : List GeneratedFile}
    (hemit : d.emit env { graph := d.graph } = (.ok files, s))
    (hat : (Schema.inline root).At path t) (hroot : path ≠ []) (hpath : path.isDefinition = false) :
    root.number path ∉ s.prepared := by
  intro hprepared
  obtain ⟨_, steps, ⟨owner, entry, hentry, rfl⟩, hfollow⟩ :=
    (emit_traced hemit).prepared _ hprepared
  obtain ⟨path₁, t₁, hat₁, hdef₁, hnumber₁⟩ := h.definition_at hentry
  obtain ⟨path₂, t₂, hat₂, hpath₂, hnumber₂⟩ := h.follow_target hat₁ (.inr hdef₁) steps
  rw [hnumber₁, hnumber₂] at hfollow
  rw [h.number_inj path t path₂ t₂ hat hat₂ hfollow] at hroot hpath
  rcases hpath₂ with hpath₂ | hpath₂
  · exact hroot hpath₂
  · rw [hpath₂] at hpath
    cases hpath

end Document

end SchemaTypes
