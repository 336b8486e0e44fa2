import SchemaTypes.Proofs.Graph.Alternatives

/-! What admits null, as the document says it. A schema admits null by itself or by one of its
alternatives; a reference does not, whatever it leads to. -/

namespace SchemaTypes

/-- Whether the keywords declare that null is admitted, in the way of the dialect. -/
def Dialect.declaredBy {α : Type} : Dialect → Keywords α → Bool
  | jsonSchema, _ => false
  | swagger2, k => k.xNullable == some true
  | openApi3, k => k.nullable == some true

namespace Keywords

variable {α : Type}

def typeList (k : Keywords α) : List JsonType := (k.types.map TypeSet.toList).getD []

/-- Whether the keywords admit null by themselves. -/
def admitsNull (dialect : Dialect) (k : Keywords α) : Bool :=
  k.enumeration.any Json.isNull || k.typeList.contains .null || dialect.declaredBy k

end Keywords

namespace Schema

/-- Whether a schema admits null; one without a type does if one of its alternatives does. -/
def admitsNull (dialect : Dialect) : Schema → Bool :=
  fold (fun _ => false) fun k =>
    k.admitsNull dialect || (k.typeList.isEmpty && k.oneOf.any fun entry => entry.all (·.2))

@[simp] lemma admitsNull_ref (dialect : Dialect) (target : String) :
    (ref target).admitsNull dialect = false := rfl

lemma admitsNull_inline (dialect : Dialect) (k : Keywords Schema) :
    (inline k).admitsNull dialect = (k.admitsNull dialect ||
      (k.typeList.isEmpty && k.oneOf.any (Option.all (admitsNull dialect)))) := by
  have hadmits (f : Schema → Schema × Bool) :
      (k.map f).admitsNull dialect = k.admitsNull dialect := by
    cases dialect <;> rfl
  have hentries : (k.map fun s => (s, admitsNull dialect s)).oneOf.any
      (fun entry => entry.all (·.2)) = k.oneOf.any (Option.all (admitsNull dialect)) := by
    rw [Keywords.map, List.any_map]
    refine congrArg k.oneOf.any (funext fun entry => ?_)
    cases entry <;> rfl
  rw [admitsNull, fold_inline, hadmits]
  exact congrArg (fun b => k.admitsNull dialect || (k.typeList.isEmpty && b)) hentries

/-- The positions of the alternatives that do not admit null. -/
def solidIndices (entries : List (Option Schema)) (start : ℕ) : List ℕ :=
  ((entries.zipIdx start).filter fun entry => entry.1.any (!admitsNull .jsonSchema ·)).map (·.2)

lemma solidIndices_set {entries : List (Option Schema)} {i : ℕ} (hi : i < entries.length)
    (entry : Option Schema) : solidIndices (entries.set i entry) 0 =
      solidIndices (entries.take i) 0 ++
        ((if entry.any (!admitsNull .jsonSchema ·) then [i] else []) ++
          solidIndices (entries.drop (i + 1)) (i + 1)) := by
  rw [solidIndices, List.set_eq_take_append_cons_drop, if_pos hi, List.zipIdx_append,
    List.zipIdx_cons, List.filter_append, List.filter_cons, List.map_append,
    List.length_take_of_le (Nat.le_of_lt hi), Nat.zero_add]
  split
  · rfl
  · rfl

lemma of_mem_solidIndices {entries : List (Option Schema)} {i : ℕ}
    (h : i ∈ solidIndices entries 0) : ∃ t, entries[i]? = some (some t) := by
  obtain ⟨⟨entry, j⟩, hmem, rfl⟩ := List.mem_map.mp h
  obtain ⟨hmem, hsolid⟩ := List.mem_filter.mp hmem
  obtain ⟨t, rfl⟩ := Option.isSome_iff_exists.mp (Option.isSome_of_any hsolid)
  exact ⟨t, List.mem_zipIdx_iff_getElem?.mp hmem⟩

end Schema

namespace Document.Represents

variable {root : Keywords Schema} {d : Document} (h : d.Represents root) {path : Path}

include h

lemma some_mem_oneOf {k : Keywords Schema} (hat : (Schema.inline root).At path (.inline k))
    {id : SchemaId} : some id ∈ (d.graph.node (root.number path)).oneOf ↔
      ∃ i schema, k.oneOf[i]? = some (some schema) ∧ id = root.number (path ++ [.oneOf i]) := by
  rw [(h.node path _ hat).1.oneOf, List.mem_map]
  constructor
  · rintro ⟨⟨entry, i⟩, hmem, heq⟩
    obtain ⟨schema, rfl, rfl⟩ := Option.map_eq_some_iff.mp heq
    exact ⟨i, schema, List.mk_mem_zipIdx_iff_getElem?.mp hmem, rfl⟩
  · rintro ⟨i, schema, hget, rfl⟩
    exact ⟨(some schema, i), List.mk_mem_zipIdx_iff_getElem?.mpr hget, rfl⟩

lemma none_mem_oneOf {k : Keywords Schema} (hat : (Schema.inline root).At path (.inline k)) :
    none ∈ (d.graph.node (root.number path)).oneOf ↔ none ∈ k.oneOf := by
  rw [(h.node path _ hat).1.oneOf, List.mem_map]
  constructor
  · rintro ⟨⟨entry, i⟩, hmem, heq⟩
    rw [← Option.map_eq_none_iff.mp heq]
    exact List.fst_mem_of_mem_zipIdx hmem
  · intro hmem
    obtain ⟨i, hget⟩ := List.mem_iff_getElem?.mp hmem
    exact ⟨(none, i), List.mk_mem_zipIdx_iff_getElem?.mpr hget, rfl⟩

lemma declares_eq {k : Keywords Schema} (hat : (Schema.inline root).At path (.inline k))
    (dialect : Dialect) :
    (d.graph.node (root.number path)).enumeration.any Member.isNull =
        k.enumeration.any Json.isNull ∧
      dialect.declaresNull (d.graph.node (root.number path)) = dialect.declaredBy k := by
  obtain ⟨hholds, _⟩ := h.node path _ hat
  constructor
  · rw [hholds.enumeration, List.any_map]
    rfl
  · cases dialect <;>
      simp [Dialect.declaresNull, Dialect.declaredBy, hholds.nullable, hholds.xNullable]

section

variable {k : Keywords Schema} {dialect : Dialect} (hat : (Schema.inline root).At path (.inline k))
  (ih : ∀ place t, (place, t) ∈ k.children →
    ∀ {path : Path}, (Schema.inline root).At path t →
      d.graph.isNullable dialect (root.number path) = t.admitsNull dialect)

include hat ih

/-- An alternative is looked into less deep, but deep enough. -/
lemma isNullableWithin_alternative {depth : ℕ} (hsize : d.graph.size = depth + 1) {i : ℕ}
    {t : Schema} (hget : k.oneOf[i]? = some (some t)) :
    d.graph.isNullableWithin dialect depth (root.number (path ++ [.oneOf i])) =
      t.admitsNull dialect := by
  obtain ⟨rank, hrank⟩ := h.exists_ranked
  have hchild := (Keywords.Child.oneOf hget).mem_children
  have hlt := hrank.splits _ _ (.inl ((h.some_mem_oneOf hat).mpr ⟨i, t, hget, rfl⟩))
  have hroot := hrank.rank_lt (root.number path)
  rw [← ih _ t hchild (hat.concat hchild), Graph.isNullable]
  exact hrank.isNullableWithin_eq (by omega) (by omega)

lemma alternatives_nullable {depth : ℕ} (hsize : d.graph.size = depth + 1) :
    (none ∈ (d.graph.node (root.number path)).oneOf ∨
        ∃ alternative, some alternative ∈ (d.graph.node (root.number path)).oneOf ∧
          d.graph.isNullableWithin dialect depth alternative) ↔
      k.oneOf.any (Option.all (Schema.admitsNull dialect)) := by
  rw [h.none_mem_oneOf hat, List.any_eq_true]
  constructor
  · rintro (hnone | ⟨_, halternative, hnull⟩)
    · exact ⟨none, hnone, rfl⟩
    · obtain ⟨i, t, hget, rfl⟩ := (h.some_mem_oneOf hat).mp halternative
      rw [h.isNullableWithin_alternative hat ih hsize hget] at hnull
      exact ⟨some t, List.mem_of_getElem? hget, hnull⟩
  · rintro ⟨_ | t, hmem, hnull⟩
    · exact .inl hmem
    · obtain ⟨i, hget⟩ := List.mem_iff_getElem?.mp hmem
      refine .inr ⟨_, (h.some_mem_oneOf hat).mpr ⟨i, t, hget, rfl⟩, ?_⟩
      rw [h.isNullableWithin_alternative hat ih hsize hget]
      exact hnull

end

lemma isNullable_eq {t : Schema} (hat : (Schema.inline root).At path t) (dialect : Dialect) :
    d.graph.isNullable dialect (root.number path) = t.admitsNull dialect := by
  obtain ⟨depth, hsize⟩ := Nat.exists_eq_add_one.mpr h.size_pos
  induction t using Schema.induct generalizing path with
  | ref target =>
    obtain ⟨_, _, hnode⟩ := h.node path _ hat
    rw [Graph.isNullable, hsize, Graph.isNullableWithin, hnode]
    cases dialect <;> rfl
  | inline k ih =>
    obtain ⟨hmembers, hdeclares⟩ := h.declares_eq hat dialect
    have hentries := h.alternatives_nullable hat (fun place t hmem _ hat => ih place t hmem hat)
      hsize
    have htypes : (d.graph.node (root.number path)).types = k.typeList :=
      (h.node path _ hat).1.types
    rw [Bool.eq_iff_iff, Graph.isNullable, hsize, Graph.isNullableWithin_succ, hentries, hmembers,
      hdeclares, Node.hasType, Node.hasNoType, htypes, Schema.admitsNull_inline,
      Keywords.admitsNull]
    simp only [Bool.or_eq_true, Bool.and_eq_true]
    tauto

lemma solidAlternatives_eq {k : Keywords Schema} (hat : (Schema.inline root).At path (.inline k)) :
    d.graph.solidAlternatives (root.number path) =
      (Schema.solidIndices k.oneOf 0).map fun i => root.number (path ++ [.oneOf i]) := by
  rw [Graph.solidAlternatives, Node.alternatives, (h.node path _ hat).1.oneOf, Schema.solidIndices,
    List.filterMap_map, List.filter_filterMap, List.map_map, ← List.filterMap_eq_map,
    List.filterMap_filter]
  refine List.filterMap_congr ?_
  rintro ⟨_ | t, i⟩ hmem
  · rfl
  · have hchild := (Keywords.Child.oneOf (List.mem_zipIdx_iff_getElem?.mp hmem)).mem_children
    have hnull := h.isNullable_eq (hat.concat hchild) .jsonSchema
    simp [Option.filter, hnull]

/-- A schema without a type is replaced by the only alternative that does not admit null. -/
lemma removeNullability_eq {k : Keywords Schema} (hat : (Schema.inline root).At path (.inline k))
    (hno : k.typeList = []) : d.graph.removeNullability (root.number path) =
      if k.enumeration = [] then
        match Schema.solidIndices k.oneOf 0 with
        | [i] => root.number (path ++ [.oneOf i])
        | _ => root.number path
      else root.number path := by
  obtain ⟨hholds, _⟩ := h.node path _ hat
  have htypes : (d.graph.node (root.number path)).types = [] := hholds.types.trans hno
  have hmembers : (d.graph.node (root.number path)).isEnumeration = !k.enumeration.isEmpty := by
    rw [Node.isEnumeration, hholds.enumeration, List.isEmpty_map]
  simp only [Graph.removeNullability, hmembers, Node.hasNoType, Node.isObject, Node.hasType, htypes,
    h.solidAlternatives_eq hat]
  rcases k.enumeration with _ | _
  · rcases Schema.solidIndices k.oneOf 0 with _ | ⟨i, _ | _⟩ <;> simp
  · simp

lemma removeNullability_eq_self_iff {k : Keywords Schema}
    (hat : (Schema.inline root).At path (.inline k)) (hno : k.typeList = []) :
    d.graph.removeNullability (root.number path) = root.number path ↔
      (k.enumeration = [] → (Schema.solidIndices k.oneOf 0).length ≠ 1) := by
  rw [h.removeNullability_eq hat hno]
  by_cases hmembers : k.enumeration = []
  case neg => simp [hmembers]
  rw [if_pos hmembers]
  rcases hsolid : Schema.solidIndices k.oneOf 0 with _ | ⟨i, _ | ⟨j, rest⟩⟩
  · simp
  · obtain ⟨t, hget⟩ := Schema.of_mem_solidIndices (hsolid ▸ List.mem_singleton_self i)
    have hchild := hat.concat (Keywords.Child.oneOf hget).mem_children
    have hne : root.number (path ++ [.oneOf i]) ≠ root.number path := fun heq => by
      have hpath := h.number_inj _ _ _ _ hchild hat heq
      simp at hpath
    simp [hmembers, hne]
  · simp

end Document.Represents

end SchemaTypes
