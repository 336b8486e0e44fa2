import SchemaTypes.Proofs.Graph.Following
import SchemaTypes.Proofs.Graph.Loaded
import SchemaTypes.Proofs.Graph.Nullability
import SchemaTypes.Proofs.Schema.Replacement
import SchemaTypes.Schema.Encode

/-! Alternatives in place and behind references. A reference does not admit null, so that an
alternative which does is taken for another one when it is written as a definition of its own. -/

namespace SchemaTypes

lemma List.any_set {α : Type} {f : α → Bool} {entries : List α} {i : ℕ} (hi : i < entries.length)
    (a : α) : (entries.set i a).any f ↔
      f a ∨ ∃ j, j ≠ i ∧ ∃ entry, entries[j]? = some entry ∧ f entry := by
  rw [List.any_eq_true]
  constructor
  · rintro ⟨entry, hmem, hentry⟩
    obtain ⟨j, hget⟩ := List.mem_iff_getElem?.mp hmem
    by_cases hj : j = i
    · subst hj
      rw [List.getElem?_set_self hi, Option.some.injEq] at hget
      exact .inl (hget ▸ hentry)
    · rw [List.getElem?_set_ne (Ne.symm hj)] at hget
      exact .inr ⟨j, hj, entry, hget, hentry⟩
  · rintro (ha | ⟨j, hj, entry, hget, hentry⟩)
    · exact ⟨a, List.mem_of_getElem? (List.getElem?_set_self hi), ha⟩
    · rw [← List.getElem?_set_ne (Ne.symm hj)] at hget
      exact ⟨entry, List.mem_of_getElem? hget, hentry⟩

/-- Whether a schema without a type admits null by itself or by an alternative at another
position. -/
def Graph.AdmitsNullBesides (g : Graph) (dialect : Dialect) (id : SchemaId) (i : ℕ) : Prop :=
  (g.node id).enumeration.any Member.isNull ∨ dialect.declaresNull (g.node id) ∨
    ∃ j, j ≠ i ∧ ∃ entry, (g.node id).oneOf[j]? = some entry ∧ entry.all (g.isNullable dialect)

/-- An alternative of a schema without a type; a definition of the root that is to hold it instead;
and a text that refers to this definition. -/
structure Extraction (root : Keywords Schema) where
  owner : Path
  keywords : Keywords Schema
  index : ℕ
  content : Keywords Schema
  group : Section
  name : String
  target : String
  owner_at : (Schema.inline root).At owner (.inline keywords)
  untyped : keywords.typeList = []
  alternative : keywords.oneOf[index]? = some (some (.inline content))
  fresh : .definition group name ∉ root.children.map (·.1)
  refers : Pointer.dropTrailingSlashes target = Path.text [.definition group name]

namespace Extraction

variable {root : Keywords Schema} (x : Extraction root)

/-- Where the alternative stands in the document. -/
def path : Path := x.owner ++ [.oneOf x.index]

/-- Where it stands when it is a definition. -/
def place : Path := [.definition x.group x.name]

/-- The document with a reference for the alternative, and with the new definition. -/
def document : Keywords Schema :=
  match (Schema.inline root).replaceAt x.path (.ref x.target) with
  | .inline k => k.define x.name (.inline x.content) x.group
  | .ref _ => root

variable {q : Path} {t t' : Schema}

lemma exists_replaced : ∃ k, (Schema.inline root).replaceAt x.path (.ref x.target) = .inline k ∧
    k.children.map (·.1) = root.children.map (·.1) ∧
    x.document = k.define x.name (.inline x.content) x.group := by
  obtain ⟨first, rest, hpath⟩ : ∃ first rest, x.path = first :: rest :=
    List.exists_cons_of_ne_nil (by simp [path])
  refine ⟨root.modifyAt (·.replaceAt rest (.ref x.target)) first, by rw [hpath, Schema.replaceAt],
    Keywords.places_mapPlaces _ root, ?_⟩
  rw [document, hpath]
  rfl

lemma index_lt : x.index < x.keywords.oneOf.length :=
  (List.getElem?_eq_some_iff.mp x.alternative).1

lemma set_content :
    x.keywords.oneOf.set x.index (some (.inline x.content)) = x.keywords.oneOf := by
  rw [← (List.getElem?_eq_some_iff.mp x.alternative).2]
  exact List.set_getElem_self x.index_lt

lemma path_at : (Schema.inline root).At x.path (.inline x.content) :=
  x.owner_at.concat (Keywords.Child.oneOf x.alternative).mem_children

lemma above {rest : Path} (h : (Schema.inline root).At q t) (hpath : x.path = q ++ rest)
    (hne : q ≠ []) : (Schema.inline x.document).At q (t.replaceAt rest (.ref x.target)) := by
  obtain ⟨k, hk, _, hdocument⟩ := x.exists_replaced
  have hat := h.replaceAt_above rest (.ref x.target)
  rw [← hpath, hk] at hat
  rw [hdocument]
  exact hat.define hne _ _

lemma beside (h : (Schema.inline root).At q t) (hbelow : ¬x.path <+: q) (habove : ¬q <+: x.path) :
    (Schema.inline x.document).At q t := by
  obtain ⟨k, hk, _, hdocument⟩ := x.exists_replaced
  have hat := h.replaceAt_beside hbelow habove (.ref x.target)
  rw [hk] at hat
  rw [hdocument]
  refine hat.define ?_ _ _
  rintro rfl
  exact habove List.nil_prefix

lemma reference_at : (Schema.inline x.document).At x.path (.ref x.target) := by
  have hpath : x.path = x.path ++ [] := (List.append_nil _).symm
  exact x.above x.path_at hpath (by simp [path])

lemma definition_at : (Schema.inline x.document).At x.place (.inline x.content) := by
  obtain ⟨k, _, _, hdocument⟩ := x.exists_replaced
  rw [hdocument]
  exact .child (Keywords.mem_children_define.mpr (.inl rfl)) (.here _)

lemma distinctKeys (hroot : (Schema.inline root).DistinctKeys) :
    (Schema.inline x.document).DistinctKeys := by
  obtain ⟨k, hk, hplaces, hdocument⟩ := x.exists_replaced
  have hreplaced := hroot.replaceAt (Schema.distinctKeys_ref x.target) x.path
  rw [hk] at hreplaced
  rw [hdocument]
  refine hreplaced.define (hroot.below x.path_at) ?_
  rw [hplaces]
  exact x.fresh

lemma owner_after : ∃ k, (Schema.inline x.document).At x.owner (.inline k) ∧ k.typeList = [] ∧
    k.enumeration = x.keywords.enumeration ∧
    (∀ dialect, k.admitsNull dialect = x.keywords.admitsNull dialect) ∧
    k.oneOf = x.keywords.oneOf.set x.index (some (.ref x.target)) := by
  let changed : Keywords Schema :=
    x.keywords.modifyAt (·.replaceAt [] (.ref x.target)) (.oneOf x.index)
  have hone : changed.oneOf = x.keywords.oneOf.set x.index (some (.ref x.target)) := by
    rw [Keywords.modifyAt_oneOf, List.modify_eq_set, x.alternative]
    rfl
  by_cases howner : x.owner = []
  · have hroot : Schema.inline root = .inline x.keywords := by
      have hat := x.owner_at
      rw [howner] at hat
      exact hat.of_nil.symm
    obtain ⟨k, hk, _, hdocument⟩ := x.exists_replaced
    have hchanged : k = changed := by
      rw [path, howner, hroot] at hk
      cases hk
      rfl
    refine ⟨x.document, howner ▸ .here _, ?_⟩
    rw [hdocument, hchanged, ← hone]
    cases x.group <;> exact ⟨x.untyped, rfl, fun dialect => by cases dialect <;> rfl, rfl⟩
  · refine ⟨changed, x.above x.owner_at rfl howner, x.untyped, rfl, fun dialect => ?_, hone⟩
    cases dialect <;> rfl

/-- The second schema is the first one, or it is the first one at the path with a reference for the
alternative somewhere inside. -/
def Alike (q : Path) (t t' : Schema) : Prop :=
  t' = t ∨ ∃ rest, x.path = q ++ rest ∧
    (t' = t.replaceAt rest (.ref x.target) ∨ q = [] ∧ t' = .inline x.document)

lemma alike (hkeys : (Schema.inline x.document).DistinctKeys) (h : (Schema.inline root).At q t)
    (h' : (Schema.inline x.document).At q t') (hne : q ≠ x.path) : x.Alike q t t' := by
  by_cases hbelow : x.path <+: q
  · obtain ⟨rest, rfl⟩ := hbelow
    obtain ⟨u, hu, hrest⟩ := h'.split
    rw [hu.unique hkeys x.reference_at] at hrest
    exact absurd (by rw [hrest.of_ref, List.append_nil]) hne
  by_cases habove : q <+: x.path
  · obtain ⟨rest, hpath⟩ := habove
    refine .inr ⟨rest, hpath.symm, ?_⟩
    by_cases hroot : q = []
    · subst hroot
      exact .inr ⟨rfl, h'.of_nil⟩
    · exact .inl (h'.unique hkeys (x.above h hpath.symm hroot))
  · exact .inl (h'.unique hkeys (x.beside h hbelow habove))

lemma kind (hkeys : (Schema.inline x.document).DistinctKeys) (h : (Schema.inline root).At q t)
    (h' : (Schema.inline x.document).At q t') (hne : q ≠ x.path) :
    (∃ target, t = .ref target ∧ t' = .ref target) ∨ ∃ k k', t = .inline k ∧ t' = .inline k' := by
  rcases x.alike hkeys h h' hne with rfl | ⟨rest, hpath, rfl | ⟨rfl, rfl⟩⟩
  · cases t' with
    | ref target => exact .inl ⟨target, rfl, rfl⟩
    | inline k => exact .inr ⟨k, k, rfl, rfl⟩
  · cases rest with
    | nil => exact absurd (by rw [hpath, List.append_nil]) hne
    | cons place rest =>
      cases t with
      | ref target => exact .inl ⟨target, rfl, rfl⟩
      | inline k => exact .inr ⟨k, _, rfl, rfl⟩
  · exact .inr ⟨root, x.document, h.of_nil, rfl⟩

section

variable {d d' : Document} (hd : d.Represents root) (hd' : d'.Represents x.document)
  (hkeys : (Schema.inline x.document).DistinctKeys)

include hd hd' hkeys

lemma follow_alike (h : (Schema.inline root).At q t) (h' : (Schema.inline x.document).At q t')
    (hne : q ≠ x.path) (steps : ℕ) :
    ∃ p u u', (Schema.inline root).At p u ∧ (Schema.inline x.document).At p u' ∧ p ≠ x.path ∧
      d.graph.follow steps (root.number q) = root.number p ∧
      d'.graph.follow steps (x.document.number q) = x.document.number p := by
  induction steps generalizing q t t' with
  | zero => exact ⟨q, t, t', h, h', hne, rfl, rfl⟩
  | succ steps ih =>
    have hnode := hd.node q t h
    have hnode' := hd'.node q t' h'
    rw [Graph.follow, Graph.follow]
    rcases x.kind hkeys h h' hne with ⟨target, rfl, rfl⟩ | ⟨k, k', rfl, rfl⟩
    · obtain ⟨_, ⟨p, u, _, htext, hp, hdef, rfl⟩, hnode⟩ := hnode
      obtain ⟨_, ⟨p', u', _, htext', hp', _, rfl⟩, hnode'⟩ := hnode'
      obtain rfl := Path.text_injective (htext.trans htext'.symm)
      rw [hnode, hnode']
      refine ih hp hp' ?_
      -- Definitions are no alternatives.
      rintro rfl
      simp [path, Path.isDefinition, Place.isDefinition] at hdef
    · rw [hnode.1.reference, hnode'.1.reference]
      exact ⟨q, _, _, h, h', hne, rfl, rfl⟩

lemma actual_alike (h : (Schema.inline root).At q t) (h' : (Schema.inline x.document).At q t')
    (hne : q ≠ x.path)
    (hend : d.graph.isReference (d.graph.actual (root.number q)) = false ∨
      d'.graph.isReference (d'.graph.actual (x.document.number q)) = false) :
    ∃ p k k', (Schema.inline root).At p (.inline k) ∧ (Schema.inline x.document).At p (.inline k') ∧
      p ≠ x.path ∧ d.graph.actual (root.number q) = root.number p ∧
      d'.graph.actual (x.document.number q) = x.document.number p := by
  obtain ⟨steps, hend⟩ : ∃ steps,
      (d.graph.node (d.graph.follow steps (root.number q))).reference = none ∨
        (d'.graph.node (d'.graph.follow steps (x.document.number q))).reference = none := by
    rw [Graph.isReference, Graph.isReference, Option.isSome_eq_false_iff,
      Option.isSome_eq_false_iff, Option.isNone_iff_eq_none, Option.isNone_iff_eq_none] at hend
    rcases hend with hend | hend
    · exact ⟨d.graph.size, .inl hend⟩
    · exact ⟨d'.graph.size, .inr hend⟩
  obtain ⟨p, u, u', hp, hp', hpne, hfollow, hfollow'⟩ :=
    x.follow_alike hd hd' hkeys h h' hne steps
  have hnode := hd.node p u hp
  have hnode' := hd'.node p u' hp'
  rw [hfollow, hfollow'] at hend
  rcases x.kind hkeys hp hp' hpne with ⟨target, rfl, rfl⟩ | ⟨k, k', rfl, rfl⟩
  · obtain ⟨_, _, hnode⟩ := hnode
    obtain ⟨_, _, hnode'⟩ := hnode'
    rw [hnode, hnode'] at hend
    exact absurd hend (by simp)
  · refine ⟨p, k, k', hp, hp', hpne, ?_, ?_⟩
    · rw [← hfollow]
      exact Graph.actual_of_follow (by rw [hfollow]; exact hnode.1.reference)
    · rw [← hfollow']
      exact Graph.actual_of_follow (by rw [hfollow']; exact hnode'.1.reference)

omit hd hkeys in
lemma actual_reference :
    d'.graph.actual (x.document.number x.path) = x.document.number x.place := by
  obtain ⟨_, ⟨p, u, _, htext, hp, _, rfl⟩, hnode⟩ := hd'.node _ _ x.reference_at
  obtain rfl : p = x.place := Path.text_injective (htext.trans x.refers)
  have hfollow : d'.graph.follow 1 (x.document.number x.path) = x.document.number x.place := by
    rw [Graph.follow, hnode]
    rfl
  rw [← hfollow]
  refine Graph.actual_of_follow ?_
  rw [hfollow]
  exact (hd'.node _ _ x.definition_at).1.reference

omit hd' hkeys in
lemma admitsNullBesides_iff (dialect : Dialect) :
    d.graph.AdmitsNullBesides dialect (root.number x.owner) x.index ↔
      x.keywords.admitsNull dialect ∨ ∃ j, j ≠ x.index ∧ ∃ entry,
        x.keywords.oneOf[j]? = some entry ∧ entry.all (Schema.admitsNull dialect) := by
  obtain ⟨hholds, _⟩ := hd.node _ _ x.owner_at
  obtain ⟨hmembers, hdeclares⟩ := hd.declares_eq x.owner_at dialect
  have hentries (j : ℕ) : (∃ entry, (d.graph.node (root.number x.owner)).oneOf[j]? = some entry ∧
      entry.all (d.graph.isNullable dialect)) ↔
        ∃ entry, x.keywords.oneOf[j]? = some entry ∧ entry.all (Schema.admitsNull dialect) := by
    rw [hholds.oneOf, List.getElem?_map, List.getElem?_zipIdx]
    rcases hget : x.keywords.oneOf[j]? with _ | _ | t
    · simp
    · simp
    · have hat := x.owner_at.concat (Keywords.Child.oneOf hget).mem_children
      have hnull := hd.isNullable_eq hat dialect
      simp [hnull]
  have hnone : ([] : List JsonType).contains .null = false := rfl
  rw [Graph.AdmitsNullBesides, hmembers, hdeclares, Keywords.admitsNull, x.untyped, hnone]
  simp only [hentries, Bool.or_false, Bool.or_eq_true, or_assoc]

omit hkeys in
/-- The schema admits null by the alternative or without it, and afterwards only without it. -/
lemma isNullable_owner (dialect : Dialect) :
    (d.graph.isNullable dialect (root.number x.owner) ↔
      d.graph.isNullable dialect (root.number x.path) ∨
        d.graph.AdmitsNullBesides dialect (root.number x.owner) x.index) ∧
    (d'.graph.isNullable dialect (x.document.number x.owner) ↔
      d.graph.AdmitsNullBesides dialect (root.number x.owner) x.index) := by
  obtain ⟨k, hk, hno, _, hadmits, hone⟩ := x.owner_after
  have hbefore := List.any_set (f := Option.all (Schema.admitsNull dialect)) x.index_lt
    (some (.inline x.content))
  have hafter := List.any_set (f := Option.all (Schema.admitsNull dialect)) x.index_lt
    (some (.ref x.target))
  rw [x.set_content] at hbefore
  rw [← hone] at hafter
  rw [x.admitsNullBesides_iff hd, hd.isNullable_eq x.owner_at, hd.isNullable_eq x.path_at,
    hd'.isNullable_eq hk, Schema.admitsNull_inline dialect x.keywords,
    Schema.admitsNull_inline dialect k, hno, x.untyped, hadmits]
  simp only [List.isEmpty_nil, Bool.true_and, Bool.or_eq_true, hbefore, hafter, Option.all_some,
    Schema.admitsNull_ref, Bool.false_eq_true, false_or]
  tauto

omit hd hd' hkeys in
/-- Where the alternative admits null, one more of the entries does not, and else the same ones. -/
lemma solidIndices_after {entries : List (Option Schema)}
    (h : entries = x.keywords.oneOf.set x.index (some (.ref x.target))) :
    if (Schema.inline x.content).admitsNull .jsonSchema then
      (Schema.solidIndices entries 0).length = (Schema.solidIndices x.keywords.oneOf 0).length + 1
    else Schema.solidIndices entries 0 = Schema.solidIndices x.keywords.oneOf 0 := by
  have hbefore := Schema.solidIndices_set x.index_lt (some (.inline x.content))
  rw [x.set_content] at hbefore
  rw [h, hbefore, Schema.solidIndices_set x.index_lt]
  cases hnull : (Schema.inline x.content).admitsNull .jsonSchema with
  | true =>
    simp only [if_true, Option.any_some, hnull, Schema.admitsNull_ref, Bool.not_true,
      Bool.not_false, Bool.false_eq_true, if_false, List.length_append, List.length_singleton,
      List.length_nil]
    omega
  | false =>
    simp only [Bool.false_eq_true, if_false, Option.any_some, hnull, Schema.admitsNull_ref,
      Bool.not_false, if_true]

omit hkeys in
lemma removeNullability_owner :
    ((d'.graph.removeNullability (x.document.number x.owner) = x.document.number x.owner ↔
        d.graph.removeNullability (root.number x.owner) = root.number x.owner) ↔
      (d.graph.isNullable .jsonSchema (root.number x.path) →
        (d.graph.node (root.number x.owner)).enumeration ≠ [] ∨
          1 < (d.graph.solidAlternatives (root.number x.owner)).length)) ∧
    (d.graph.removeNullability (root.number x.owner) ≠ root.number x.owner →
      d'.graph.removeNullability (x.document.number x.owner) ≠ x.document.number x.owner →
      ∃ j t, x.keywords.oneOf[j]? = some (some t) ∧
        d.graph.removeNullability (root.number x.owner) = root.number (x.owner ++ [.oneOf j]) ∧
        d'.graph.removeNullability (x.document.number x.owner) =
          x.document.number (x.owner ++ [.oneOf j])) := by
  obtain ⟨k, hk, hno, hmembers, _, hone⟩ := x.owner_after
  have hsolid := x.solidIndices_after hone
  have hempty : (d.graph.node (root.number x.owner)).enumeration ≠ [] ↔
      x.keywords.enumeration ≠ [] := by
    rw [(hd.node _ _ x.owner_at).1.enumeration, ne_eq, List.map_eq_nil_iff]
  have hkept := hd.removeNullability_eq_self_iff x.owner_at x.untyped
  have hkept' := hd'.removeNullability_eq_self_iff hk hno
  rw [hmembers] at hkept'
  constructor
  · rw [hkept, hkept', hempty, hd.isNullable_eq x.path_at, hd.solidAlternatives_eq x.owner_at,
      List.length_map]
    split at hsolid
    · rename_i hnull
      rw [hsolid]
      by_cases hnone : x.keywords.enumeration = []
      · simp only [hnone, hnull, true_implies, ne_eq, not_true_eq_false, false_or]
        omega
      · simp [hnone]
    · rename_i hnull
      simp [hsolid, hnull]
  · intro hreplaced hreplaced'
    rw [ne_eq, hkept, Classical.not_imp, not_not] at hreplaced
    rw [ne_eq, hkept', Classical.not_imp, not_not] at hreplaced'
    obtain ⟨hnone, hlength⟩ := hreplaced
    split at hsolid
    · omega
    · obtain ⟨j, hj⟩ := List.length_eq_one_iff.mp hlength
      obtain ⟨t, hget⟩ := Schema.of_mem_solidIndices (hj ▸ List.mem_singleton_self j)
      refine ⟨j, t, hget, ?_, ?_⟩
      · rw [hd.removeNullability_eq x.owner_at x.untyped, if_pos hnone, hj]
      · rw [hd'.removeNullability_eq hk hno, hmembers, if_pos hnone, hsolid, hj]

end

/-- What the schemas of the two documents stand for: references that never end, or the same
content, in which there may be a reference for the alternative. -/
def SameContent (d d' : Document) (id id' : SchemaId) : Prop :=
  (d.graph.isReference (d.graph.actual id) ∧ d'.graph.isReference (d'.graph.actual id')) ∨
    ∃ q q' k k', (Schema.inline root).At q (.inline k) ∧
      (Schema.inline x.document).At q' (.inline k') ∧
      d.graph.actual id = root.number q ∧ d'.graph.actual id' = x.document.number q' ∧
      (k' = k ∨ q' = q ∧ x.Alike q (.inline k) (.inline k'))

lemma sameContent_alternative {d d' : Document} (hd : d.Represents root)
    (hd' : d'.Represents x.document) (hkeys : (Schema.inline x.document).DistinctKeys) {j : ℕ}
    (hget : x.keywords.oneOf[j]? = some (some t)) :
    x.SameContent d d' (root.number (x.owner ++ [.oneOf j]))
      (x.document.number (x.owner ++ [.oneOf j])) := by
  have hat := x.owner_at.concat (Keywords.Child.oneOf hget).mem_children
  by_cases hj : j = x.index
  · subst hj
    have hactual : d.graph.actual (root.number x.path) = root.number x.path :=
      Graph.actual_of_follow (n := 0) (hd.node _ _ x.path_at).1.reference
    exact .inr ⟨x.path, x.place, x.content, x.content, x.path_at, x.definition_at, hactual,
      x.actual_reference hd', .inl rfl⟩
  · obtain ⟨k, hk, _, _, _, hone⟩ := x.owner_after
    have hat' : (Schema.inline x.document).At (x.owner ++ [.oneOf j]) t := by
      refine hk.concat (Keywords.Child.oneOf ?_).mem_children
      rw [hone, List.getElem?_set_ne (Ne.symm hj), hget]
    have hne : x.owner ++ [.oneOf j] ≠ x.path := by
      intro heq
      simp [path, hj] at heq
    by_cases hend : d.graph.isReference (d.graph.actual (root.number (x.owner ++ [.oneOf j]))) ∧
        d'.graph.isReference (d'.graph.actual (x.document.number (x.owner ++ [.oneOf j])))
    · exact .inl hend
    · rw [not_and_or, Bool.not_eq_true, Bool.not_eq_true] at hend
      obtain ⟨q, k, k', hq, hq', hne, hactual, hactual'⟩ :=
        x.actual_alike hd hd' hkeys hat hat' hne hend
      exact .inr ⟨q, q, k, k', hq, hq', hactual, hactual', .inr ⟨rfl, x.alike hkeys hq hq' hne⟩⟩

/-- Writing an alternative as a definition does not change whether its schema admits null, unless
the alternative was the only reason; nor whether the schema is taken for its only alternative
without null, unless the reference is a second one. The definition itself admits null just as the
alternative did. -/
theorem keeps_nullability_iff {text : String} {d d' : Document}
    (hparsed : parseJson text = .ok root ∨ parseYaml text = .ok root)
    (hlower : Document.ofKeywords root = .ok d)
    (hlower' : Document.ofKeywords x.document = .ok d') :
    (∀ dialect,
      d'.graph.isNullable dialect (d'.graph.actual (x.document.number x.path)) =
        d.graph.isNullable dialect (root.number x.path) ∧
      ((d'.graph.isNullable dialect (x.document.number x.owner) =
          d.graph.isNullable dialect (root.number x.owner)) ↔
        (d.graph.isNullable dialect (root.number x.path) →
          d.graph.AdmitsNullBesides dialect (root.number x.owner) x.index))) ∧
    ((d'.graph.removeNullability (x.document.number x.owner) = x.document.number x.owner ↔
        d.graph.removeNullability (root.number x.owner) = root.number x.owner) ↔
      (d.graph.isNullable .jsonSchema (root.number x.path) →
        (d.graph.node (root.number x.owner)).enumeration ≠ [] ∨
          1 < (d.graph.solidAlternatives (root.number x.owner)).length)) ∧
    (d.graph.removeNullability (root.number x.owner) ≠ root.number x.owner →
      d'.graph.removeNullability (x.document.number x.owner) ≠ x.document.number x.owner →
      x.SameContent d d' (d.graph.removeNullability (root.number x.owner))
        (d'.graph.removeNullability (x.document.number x.owner))) := by
  have hroot := hparsed.elim distinctKeys_of_parseJson distinctKeys_of_parseYaml
  have hkeys := x.distinctKeys hroot
  have hd := Document.represents_of_distinctKeys hroot hlower
  have hd' := Document.represents_of_distinctKeys hkeys hlower'
  obtain ⟨hreplaced, hcontent⟩ := x.removeNullability_owner hd hd'
  refine ⟨fun dialect => ⟨?_, ?_⟩, hreplaced, fun hbefore hafter => ?_⟩
  · rw [x.actual_reference hd', hd'.isNullable_eq x.definition_at, hd.isNullable_eq x.path_at]
  · obtain ⟨hbefore, hafter⟩ := x.isNullable_owner hd hd' dialect
    rw [Bool.eq_iff_iff, hbefore, hafter]
    exact Iff.comm.trans or_iff_right_iff_imp
  · obtain ⟨j, t, hget, honly, honly'⟩ := hcontent hbefore hafter
    rw [honly, honly']
    exact x.sameContent_alternative hd hd' hkeys hget

/-- The alternative at the index, if the schema has no type and the name is new. -/
def find? (root : Keywords Schema) (owner : Path) (index : ℕ) (group : Section) (name : String)
    (target : String) : Option (Extraction root) :=
  match howner : (Schema.inline root).get? owner with
  | some (.inline keywords) =>
    match halternative : keywords.oneOf[index]? with
    | some (some (.inline content)) =>
      if h : keywords.typeList = [] ∧ .definition group name ∉ root.children.map (·.1) ∧
          Pointer.dropTrailingSlashes target = Path.text [.definition group name] then
        some {
          owner, keywords, index, content, group, name, target
          owner_at := Schema.at_of_get? howner
          untyped := h.1
          alternative := halternative
          fresh := h.2.1
          refers := h.2.2 }
      else none
    | _ => none
  | _ => none

end Extraction

def maybeTextAlternativeText : String :=
  "\x7b\"properties\":\x7b\"p\":\x7b\"oneOf\":[\x7b\"type\":\"number\"\x7d," ++
    "\x7b\"type\":[\"string\",\"null\"]\x7d]\x7d\x7d\x7d"

lemma numberAlternative_extracted :
    ∃ root, parseJson maybeTextAlternativeText = .ok root ∧
      ∃ x, Extraction.find? root [.property "p"] 0 .definitions "D" "#/definitions/D" = some x ∧
        ∃ d, Document.ofKeywords root = .ok d ∧ ∃ d', Document.ofKeywords x.document = .ok d' ∧
          (∀ dialect ∈ [Dialect.jsonSchema, .swagger2, .openApi3],
            d.graph.isNullable dialect (root.number x.path) = false) ∧
          d.graph.removeNullability (root.number x.owner) ≠ root.number x.owner ∧
          d'.graph.removeNullability (x.document.number x.owner) ≠ x.document.number x.owner := by
  decide +kernel

theorem Extraction.number_keeps_nullability :
    ∃ root, parseJson maybeTextAlternativeText = .ok root ∧ ∃ (x : Extraction root) (d d' : Document),
      Document.ofKeywords root = .ok d ∧ Document.ofKeywords x.document = .ok d' ∧
      (∀ dialect, d'.graph.isNullable dialect (x.document.number x.owner) =
        d.graph.isNullable dialect (root.number x.owner)) ∧
      d.graph.removeNullability (root.number x.owner) ≠ root.number x.owner ∧
      d'.graph.removeNullability (x.document.number x.owner) ≠ x.document.number x.owner ∧
      x.SameContent d d' (d.graph.removeNullability (root.number x.owner))
        (d'.graph.removeNullability (x.document.number x.owner)) := by
  obtain ⟨root, hparsed, x, _, d, hlower, d', hlower', hsolid, hbefore, hafter⟩ :=
    numberAlternative_extracted
  obtain ⟨hnull, _, hcontent⟩ := x.keeps_nullability_iff (.inl hparsed) hlower hlower'
  refine ⟨root, hparsed, x, d, d', hlower, hlower', fun dialect => ?_, hbefore, hafter,
    hcontent hbefore hafter⟩
  refine (hnull dialect).2.mpr fun halternative => absurd halternative ?_
  rw [hsolid dialect (by cases dialect <;> simp)]
  exact Bool.false_ne_true

def maybeTextDefinitionText : String :=
  "\x7b\"properties\":\x7b\"p\":\x7b\"oneOf\":[\x7b\"type\":\"number\"\x7d," ++
    "\x7b\"$ref\":\"#/definitions/D\"\x7d]\x7d\x7d," ++
    "\"definitions\":\x7b\"D\":\x7b\"type\":[\"string\",\"null\"]\x7d\x7d\x7d"

/-- The text may be missing, and the schema with it, which is taken for the number. With a reference
for the text, neither is so. -/
theorem Extraction.maybeText_loses_nullability :
    ∃ root, parseJson maybeTextAlternativeText = .ok root ∧
      ∃ x, Extraction.find? root [.property "p"] 1 .definitions "D" "#/definitions/D" = some x ∧
        x.document.documentJson.compact = maybeTextDefinitionText ∧
        ∃ d, Document.ofKeywords root = .ok d ∧ ∃ d', Document.ofKeywords x.document = .ok d' ∧
          (∀ dialect ∈ [Dialect.jsonSchema, .swagger2, .openApi3],
            d.graph.isNullable dialect (root.number x.owner) ∧
              ¬d'.graph.isNullable dialect (x.document.number x.owner)) ∧
          d.graph.removeNullability (root.number x.owner) ≠ root.number x.owner ∧
          d'.graph.removeNullability (x.document.number x.owner) = x.document.number x.owner := by
  decide +kernel

end SchemaTypes
