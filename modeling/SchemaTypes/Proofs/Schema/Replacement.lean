import SchemaTypes.Proofs.Graph.Ranges
import SchemaTypes.Proofs.Schema.Decode

/-! Documents in which a schema has been replaced by a reference to a new definition of the root.
What stands beside the place is the same schema as before, and what stands above it is the same but
for that place. -/

namespace SchemaTypes

namespace Keywords

variable {α β : Type}

/-- The keywords with each schema below changed as its place says. -/
def mapPlaces (f : Place → α → β) (k : Keywords α) : Keywords β :=
  { k with
    properties := k.properties.map fun entry => (entry.1, f (.property entry.1) entry.2)
    additional := k.additional.map (Additional.map (f .additional))
    patterns := k.patterns.map fun entry => (entry.1, f (.pattern entry.1) entry.2)
    dictionaryKey := k.dictionaryKey.map (f .dictionaryKey)
    items := k.items.map fun
      | .each a => .each (f .items a)
      | .tuple as => .tuple (as.mapIdx fun i => f (.item i))
    allOf := k.allOf.mapIdx fun i => f (.allOf i)
    oneOf := k.oneOf.mapIdx fun i => Option.map (f (.oneOf i))
    anyOf := k.anyOf.mapIdx fun i => f (.anyOf i)
    definitions :=
      k.definitions.map fun entry => (entry.1, f (.definition .definitions entry.1) entry.2)
    defs := k.defs.map fun entry => (entry.1, f (.definition .defs entry.1) entry.2)
    components := k.components.map
      (List.map fun entry => (entry.1, f (.definition .components entry.1) entry.2)) }

/-- The keywords with the schema at the place changed, if there is one. -/
def modifyAt (f : α → α) (place : Place) (k : Keywords α) : Keywords α :=
  k.mapPlaces fun place' a => if place' = place then f a else a

/-- The keywords with one more definition. -/
def define (name : String) (a : α) (k : Keywords α) : Section → Keywords α
  | .definitions => { k with definitions := k.definitions ++ [(name, a)] }
  | .defs => { k with defs := k.defs ++ [(name, a)] }
  | .components => { k with components := some (k.components.getD [] ++ [(name, a)]) }

variable {k : Keywords α} {place : Place} {a : α}

lemma mapPlaces_sections (f : Place → α → β) (k : Keywords α) :
    (k.mapPlaces f).sections = k.sections.map fun section' =>
      (section'.1, section'.2.map fun entry =>
        (entry.1, f (.definition section'.1 entry.1) entry.2)) := by
  cases h : k.components <;> simp [sections, mapPlaces, h]

lemma zipIdx_mapIdx (f : ℕ → α → β) (as : List α) :
    (as.mapIdx f).zipIdx = as.zipIdx.map fun item => (f item.2 item.1, item.2) := by
  refine List.ext_getElem? fun i => ?_
  cases h : as[i]? <;> simp [h]

lemma mapPlaces_itemPlaces (f : Place → α → β) (k : Keywords α) :
    (k.mapPlaces f).itemPlaces = k.itemPlaces.map fun child => (child.1, f child.1 child.2) := by
  rcases h : k.items with _ | _ | as
  · simp [itemPlaces, mapPlaces, h]
  · simp [itemPlaces, mapPlaces, h]
  · simp [itemPlaces, mapPlaces, h, zipIdx_mapIdx]

lemma mapPlaces_definitionPlaces (f : Place → α → β) (k : Keywords α) :
    (k.mapPlaces f).definitionPlaces =
      k.definitionPlaces.map fun child => (child.1, f child.1 child.2) := by
  simp [definitionPlaces, mapPlaces_sections, List.flatMap_map, List.map_flatMap,
    Function.comp_def]

lemma mapPlaces_additionalSchema (f : Place → α → β) (k : Keywords α) :
    (k.mapPlaces f).additionalSchema = k.additionalSchema.map (f .additional) := by
  rcases h : k.additional with _ | _ | a <;> simp [additionalSchema, mapPlaces, h, Additional.map]

lemma mapPlaces_oneOfPlaces (f : Place → α → β) (k : Keywords α) :
    ((k.mapPlaces f).oneOf.zipIdx.filterMap fun (entry, i) =>
        entry.map fun b => (Place.oneOf i, b)) =
      (k.oneOf.zipIdx.filterMap fun (entry, i) => entry.map fun a => (Place.oneOf i, a)).map
        fun child => (child.1, f child.1 child.2) := by
  rw [mapPlaces, zipIdx_mapIdx, List.filterMap_map, List.map_filterMap]
  congr 1
  funext ⟨entry, i⟩
  cases entry <;> rfl

lemma children_mapPlaces (f : Place → α → β) (k : Keywords α) :
    (k.mapPlaces f).children = k.children.map fun child => (child.1, f child.1 child.2) := by
  rw [children, children, mapPlaces_definitionPlaces, mapPlaces_additionalSchema,
    mapPlaces_itemPlaces, mapPlaces_oneOfPlaces]
  simp only [List.map_append]
  simp only [mapPlaces, zipIdx_mapIdx, List.map_map]
  cases k.additionalSchema <;> cases k.dictionaryKey <;> rfl

lemma places_mapPlaces (f : Place → α → β) (k : Keywords α) :
    (k.mapPlaces f).children.map (·.1) = k.children.map (·.1) := by
  rw [children_mapPlaces, List.map_map]
  rfl

lemma DistinctKeys.mapPlaces (h : k.DistinctKeys) (f : Place → α → β) :
    (k.mapPlaces f).DistinctKeys := by
  have hentries (place : String → Place) {entries : List (String × α)}
      (h : (entries.map (·.1)).Nodup) :
      ((entries.map fun entry => (entry.1, f (place entry.1) entry.2)).map (·.1)).Nodup := by
    rwa [List.map_map]
  have hcomponents : (((k.mapPlaces f).components.getD []).map (·.1)).Nodup := by
    have hnodup := h.components
    rw [Keywords.mapPlaces]
    cases hk : k.components with
    | none => exact List.nodup_nil
    | some entries =>
      rw [hk] at hnodup
      exact hentries (.definition .components) hnodup
  exact ⟨hentries .property h.properties, hentries .pattern h.patterns,
    hentries (.definition .definitions) h.definitions, hentries (.definition .defs) h.defs,
    hcomponents⟩

lemma mem_children_modifyAt (f : α → α) (h : (place, a) ∈ k.children) :
    (place, f a) ∈ (k.modifyAt f place).children := by
  rw [modifyAt, children_mapPlaces]
  exact List.mem_map.mpr ⟨(place, a), h, by rw [if_pos rfl]⟩

lemma mem_children_modifyAt_of_ne {other : Place} (f : α → α) (h : (place, a) ∈ k.children)
    (hne : place ≠ other) : (place, a) ∈ (k.modifyAt f other).children := by
  rw [modifyAt, children_mapPlaces]
  exact List.mem_map.mpr ⟨(place, a), h, by rw [if_neg hne]⟩

lemma modifyAt_oneOf (f : α → α) (i : ℕ) (k : Keywords α) :
    (k.modifyAt f (.oneOf i)).oneOf = k.oneOf.modify i (Option.map f) := by
  refine List.ext_getElem? fun j => ?_
  rw [modifyAt, mapPlaces, List.getElem?_mapIdx, List.getElem?_modify]
  by_cases h : i = j
  · simp [h]
  · simp [h, Ne.symm h]

lemma mem_children_define {name : String} {group : Section} {child : Place × α} :
    child ∈ (k.define name a group).children ↔
      child = (.definition group name, a) ∨ child ∈ k.children := by
  have hdefinitions : child ∈ (k.define name a group).definitionPlaces ↔
      child = (.definition group name, a) ∨ child ∈ k.definitionPlaces := by
    cases group <;>
      simp only [definitionPlaces, sections, define, List.flatMap_cons, List.flatMap_nil,
        List.map_append, List.map_cons, List.map_nil, List.mem_append, List.mem_singleton,
        List.append_nil, Option.getD_some] <;>
      tauto
  have hsplit (k : Keywords α) :
      k.children = k.definitionPlaces ++ k.children.drop k.definitionPlaces.length := by
    simp only [children, List.append_assoc, List.drop_left]
  have hother : (k.define name a group).children.drop
      (k.define name a group).definitionPlaces.length =
        k.children.drop k.definitionPlaces.length := by
    simp only [children, List.append_assoc, List.drop_left]
    cases group <;> rfl
  rw [hsplit k, hsplit (k.define name a group), hother, List.mem_append, List.mem_append,
    hdefinitions, or_assoc]

lemma DistinctKeys.define {name : String} {group : Section} (h : k.DistinctKeys)
    (hnew : .definition group name ∉ k.children.map (·.1)) (a : α) :
    (k.define name a group).DistinctKeys := by
  have hnames {entries : List (String × α)} (hsection : (group, entries) ∈ k.sections)
      (hentries : (entries.map (·.1)).Nodup) : ((entries ++ [(name, a)]).map (·.1)).Nodup := by
    rw [List.map_append, List.map_singleton, ← List.concat_eq_append]
    refine List.Nodup.concat (fun hmem => hnew ?_) hentries
    obtain ⟨entry, hentry, rfl⟩ := List.mem_map.mp hmem
    exact List.mem_map.mpr ⟨_, (Child.definition hsection hentry).mem_children, rfl⟩
  cases group with
  | definitions => exact { h with definitions := hnames (by simp [sections]) h.definitions }
  | defs => exact { h with defs := hnames (by simp [sections]) h.defs }
  | components => exact { h with components := hnames (by simp [sections]) h.components }

end Keywords

namespace Schema

/-- The schema with another one at the path. -/
def replaceAt : Schema → Path → Schema → Schema
  | _, [], new => new
  | ref target, _ :: _, _ => ref target
  | inline k, place :: path, new => inline (k.modifyAt (replaceAt · path new) place)

/-- The schema at the path. -/
def get? : Schema → Path → Option Schema
  | s, [] => some s
  | ref _, _ :: _ => none
  | inline k, place :: path => (k.children.lookup place).bind (get? · path)

variable {new s t : Schema} {path q : Path}

lemma at_of_get? (h : s.get? q = some t) : s.At q t := by
  induction q generalizing s with
  | nil =>
    cases h
    exact .here _
  | cons place q ih =>
    cases s with
    | ref target => cases h
    | inline k =>
      obtain ⟨child, hchild, h⟩ := Option.bind_eq_some_iff.mp h
      obtain ⟨before, after, hchildren, _⟩ := List.lookup_eq_some_iff.mp hchild
      exact .child (by rw [hchildren]; exact List.mem_append_cons_self) (ih h)

lemma At.replaceAt_above (h : s.At q t) (rest : Path) (new : Schema) :
    (s.replaceAt (q ++ rest) new).At q (t.replaceAt rest new) := by
  induction h with
  | here => exact .here _
  | child hmem _ ih => exact .child (Keywords.mem_children_modifyAt _ hmem) ih

lemma At.replaceAt_beside (h : s.At q t) (hbelow : ¬path <+: q) (habove : ¬q <+: path)
    (new : Schema) : (s.replaceAt path new).At q t := by
  induction h generalizing path with
  | here => exact absurd List.nil_prefix habove
  | @child k place u t q hmem ht ih =>
    cases path with
    | nil => exact absurd List.nil_prefix hbelow
    | cons place' path =>
      by_cases hplace : place = place'
      · subst hplace
        rw [List.prefix_cons_inj] at hbelow habove
        exact .child (Keywords.mem_children_modifyAt _ hmem) (ih hbelow habove)
      · exact .child (Keywords.mem_children_modifyAt_of_ne _ hmem hplace) ht

lemma At.define {k : Keywords Schema} (h : (inline k).At q t) (hne : q ≠ []) (name : String)
    (group : Section) : (inline (k.define name new group)).At q t := by
  cases h with
  | here => exact absurd rfl hne
  | child hmem ht => exact .child (Keywords.mem_children_define.mpr (.inr hmem)) ht

lemma At.of_nil (h : s.At [] t) : t = s := by
  cases h
  rfl

lemma At.of_ref {target : String} (h : (ref target).At q t) : q = [] := by
  cases h
  rfl

lemma At.split (h : s.At (path ++ q) t) : ∃ u, s.At path u ∧ u.At q t := by
  induction path generalizing s with
  | nil => exact ⟨s, .here s, h⟩
  | cons place path ih =>
    cases h with
    | child hmem ht =>
      obtain ⟨u, hu, hq⟩ := ih ht
      exact ⟨u, .child hmem hu, hq⟩

lemma DistinctKeys.below (hkeys : s.DistinctKeys) (h : s.At q t) : t.DistinctKeys := by
  induction h with
  | here => exact hkeys
  | child hmem _ ih => exact ih (hkeys.child hmem)

lemma DistinctKeys.replaceAt (h : s.DistinctKeys) (hnew : new.DistinctKeys) (path : Path) :
    (s.replaceAt path new).DistinctKeys := by
  induction path generalizing s with
  | nil => exact hnew
  | cons place path ih =>
    cases s with
    | ref target => exact h
    | inline k =>
      refine distinctKeys_inline ((h [] k (.here _)).mapPlaces _) fun child hmem => ?_
      rw [Keywords.modifyAt, Keywords.children_mapPlaces] at hmem
      obtain ⟨⟨place', t⟩, hbelow, rfl⟩ := List.mem_map.mp hmem
      dsimp only
      split
      · exact ih (h.child hbelow)
      · exact h.child hbelow

lemma DistinctKeys.define {k : Keywords Schema} (h : (inline k).DistinctKeys)
    (hnew : new.DistinctKeys) {name : String} {group : Section}
    (hfresh : .definition group name ∉ k.children.map (·.1)) :
    (inline (k.define name new group)).DistinctKeys := by
  refine distinctKeys_inline ((h [] k (.here _)).define hfresh new) fun child hmem => ?_
  rcases Keywords.mem_children_define.mp hmem with rfl | hmem
  · exact hnew
  · exact h.child hmem

lemma At.unique {t' : Schema} (hkeys : s.DistinctKeys) (h : s.At q t) (h' : s.At q t') :
    t = t' := by
  induction h with
  | here =>
    cases h'
    rfl
  | @child k place u t q hmem _ ih =>
    cases h' with
    | child hmem' ht' =>
      have hsame := List.inj_on_of_nodup_map (hkeys [] k (.here _)).places_nodup hmem hmem' rfl
      cases hsame
      exact ih (hkeys.child hmem) ht'

end Schema

end SchemaTypes
