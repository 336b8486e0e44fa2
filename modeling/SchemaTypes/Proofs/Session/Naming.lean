import SchemaTypes.Proofs.Entries
import SchemaTypes.Proofs.Session.Steps
import Mathlib.Data.List.Nodup

/-! The names of a session stand apart: no two schemas share one, all are identifiers, and what
the generator is shown as taken are these names. A step only adds to them. -/

namespace SchemaTypes

namespace Session

variable {env : Environment} {s t : Session}

lemma prepare_keeps {β : Type} (p : Session → β)
    (h : ∀ (s : Session) graph prepared wrappers remappings,
      p { s with graph, prepared, wrappers, remappings } = p s) (s : Session) (id : SchemaId) :
    p (s.prepare id).2 = p s := by
  unfold prepare
  split
  · rfl
  · split
    · rfl
    · simp only
      split
      · exact h s _ _ _ _
      · exact h s _ _ _ _

@[simp] lemma prepare_types (s : Session) (id : SchemaId) : (s.prepare id).2.types = s.types :=
  prepare_keeps Session.types (fun _ _ _ _ _ => rfl) s id

@[simp] lemma prepare_taken (s : Session) (id : SchemaId) : (s.prepare id).2.taken = s.taken :=
  prepare_keeps Session.taken (fun _ _ _ _ _ => rfl) s id

lemma nameOf?_eq_none {id : SchemaId} : s.nameOf? id = none ↔ id ∉ s.types.map (·.1) :=
  Entries.lookup_eq_none

lemma nameOf?_ne_none {entry : SchemaId × String} (h : entry ∈ s.types) :
    s.nameOf? entry.1 ≠ none :=
  fun hnone => nameOf?_eq_none.mp hnone (List.mem_map_of_mem h)

lemma mem_names {id : SchemaId} {name : String} (h : s.nameOf? id = some name) :
    name ∈ s.names := by
  obtain ⟨before, after, heq, _⟩ := List.lookup_eq_some_iff.mp h
  simp [names, heq]

/-- The names of different schemas differ, they are identifiers, and they are what is taken. -/
structure NamesApart (s : Session) : Prop where
  schemas_nodup : (s.types.map (·.1)).Nodup
  names_nodup : s.names.Nodup
  identifiers : ∀ name ∈ s.names, Text.isIdentifier name
  taken : ∀ name, name ∈ s.taken ↔ name ∈ s.names

lemma NamesApart.nameOf?_inj (hs : s.NamesApart) {id other : SchemaId} {name : String}
    (hid : s.nameOf? id = some name) (hother : s.nameOf? other = some name) : id = other := by
  have hmem {id : SchemaId} (h : s.nameOf? id = some name) : (id, name) ∈ s.types := by
    obtain ⟨before, after, heq, _⟩ := List.lookup_eq_some_iff.mp h
    simp [heq]
  have heq := List.inj_on_of_nodup_map hs.names_nodup (hmem hid) (hmem hother) rfl
  exact (Prod.mk.inj heq).1

lemma NamesApart.start (g : Graph) : NamesApart { graph := g } :=
  ⟨List.nodup_nil, List.nodup_nil, by simp [names], by simp [names]⟩

lemma NamesApart.congr (hs : s.NamesApart) (htypes : t.types = s.types)
    (htaken : t.taken = s.taken) : t.NamesApart := by
  obtain ⟨h₁, h₂, h₃, h₄⟩ := hs
  constructor <;> simpa only [names, htypes, htaken]

/-- What a step does to the names: nothing, or it gives a new one to a schema without one. -/
lemma Step.types_cases (h : Step env s t) :
    (t.types = s.types ∧ t.taken = s.taken) ∨
      ∃ id name, s.nameOf? id = none ∧ Text.isIdentifier name ∧ name ∉ s.taken ∧
        t.types = s.types ++ [(id, name)] ∧ t.taken = name :: s.taken := by
  cases h with
  | beginRegistration | endRegistration | beginExpansion | endExpansion | refuse =>
    exact .inl ⟨rfl, rfl⟩
  | prepare id => exact .inl ⟨prepare_types s id, prepare_taken s id⟩
  | name id hint name unnamed _ valid free =>
    exact .inr ⟨id, name, unnamed, valid, free, rfl, rfl⟩

lemma Step.types_prefix (h : Step env s t) : s.types <+: t.types := by
  rcases h.types_cases with ⟨h, _⟩ | ⟨id, name, _, _, _, h, _⟩
  · exact ⟨[], by rw [h, List.append_nil]⟩
  · exact ⟨[(id, name)], h.symm⟩

lemma Step.namesApart (h : Step env s t) (hs : s.NamesApart) : t.NamesApart := by
  rcases h.types_cases with ⟨htypes, htaken⟩ | ⟨id, name, unnamed, valid, free, htypes, htaken⟩
  · exact hs.congr htypes htaken
  · have fresh : name ∉ s.names := fun h => free ((hs.taken name).mpr h)
    have hnames : t.names = s.names ++ [name] := by simp [names, htypes]
    constructor
    · rw [htypes, List.map_append, List.map_singleton, ← List.concat_eq_append]
      exact hs.schemas_nodup.concat (nameOf?_eq_none.mp unnamed)
    · rw [hnames, ← List.concat_eq_append]
      exact hs.names_nodup.concat fresh
    · intro n hn
      rw [hnames, List.mem_append, List.mem_singleton] at hn
      rcases hn with hn | rfl
      · exact hs.identifiers n hn
      · exact valid
    · intro n
      rw [htaken, hnames, List.mem_cons, List.mem_append, List.mem_singleton, hs.taken]
      exact or_comm

lemma Run.types_prefix (h : Run env s t) : s.types <+: t.types :=
  h.keeps (fun hstep hprefix => hprefix.trans hstep.types_prefix) (List.prefix_refl _)

lemma Run.drop_types (h : Run env s t) {position : ℕ} {entry : SchemaId × String}
    (hentry : s.types[position]? = some entry) :
    t.types.drop position = entry :: t.types.drop (position + 1) := by
  obtain ⟨hlt, hget⟩ := List.getElem?_eq_some_iff.mp hentry
  have hprefix := h.types_prefix
  rw [List.drop_eq_getElem_cons (Nat.lt_of_lt_of_le hlt hprefix.length_le),
    ← hprefix.getElem hlt, hget]

lemma Run.namesApart (h : Run env s t) (hs : s.NamesApart) : t.NamesApart :=
  h.keeps Step.namesApart hs

lemma Run.names_subset (h : Run env s t) : s.names ⊆ t.names :=
  List.map_subset _ h.types_prefix.subset

lemma Run.nameOf? (h : Run env s t) {id : SchemaId} {name : String}
    (hname : s.nameOf? id = some name) : t.nameOf? id = some name :=
  h.types_prefix.lookup_eq_some hname

lemma Run.nameOf?_eq_none (h : Run env s t) {id : SchemaId} (hname : t.nameOf? id = none) :
    s.nameOf? id = none := by
  by_contra hsome
  obtain ⟨name, hname'⟩ := Option.ne_none_iff_exists'.mp hsome
  rw [h.nameOf? hname'] at hname
  cases hname

end Session

end SchemaTypes
