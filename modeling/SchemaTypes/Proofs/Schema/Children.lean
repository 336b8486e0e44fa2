import SchemaTypes.Schema.Basic
import Mathlib.Data.List.Basic
import Mathlib.Tactic.Common

/-! The schemas right below a schema. Folding a schema gives each of them its own result, and what
holds of a schema whenever it holds of these holds of all schemas. -/

namespace SchemaTypes

def Additional.map {α β : Type} (f : α → β) : Additional α → Additional β
  | allowed flag => allowed flag
  | schema a => schema (f a)

def Items.map {α β : Type} (f : α → β) : Items α → Items β
  | each a => each (f a)
  | tuple as => tuple (as.map f)

namespace Keywords

variable {α β : Type}

def mapEntries (f : α → β) (entries : List (String × α)) : List (String × β) :=
  entries.map fun entry => (entry.1, f entry.2)

def map (f : α → β) (k : Keywords α) : Keywords β :=
  { k with
    properties := mapEntries f k.properties
    additional := k.additional.map (Additional.map f)
    patterns := mapEntries f k.patterns
    dictionaryKey := k.dictionaryKey.map f
    items := k.items.map (Items.map f)
    allOf := k.allOf.map f
    oneOf := k.oneOf.map (Option.map f)
    anyOf := k.anyOf.map f
    definitions := mapEntries f k.definitions
    defs := mapEntries f k.defs
    components := k.components.map (mapEntries f) }

lemma map_map {γ : Type} (f : α → β) (h : β → γ) (k : Keywords α) :
    (k.map f).map h = k.map fun a => h (f a) := by
  have hadditional : ∀ a : Additional α, (a.map f).map h = a.map fun a => h (f a) := by
    rintro (_ | _) <;> rfl
  have hitems : ∀ items : Items α, (items.map f).map h = items.map fun a => h (f a) := by
    rintro (_ | _)
    · rfl
    · simp [Items.map]
  have hentries : ∀ entries : List (String × α),
      mapEntries h (mapEntries f entries) = mapEntries (fun a => h (f a)) entries := by
    simp [mapEntries]
  simp [map, Function.comp_def, hadditional, hitems, hentries]

lemma itemPlaces_map (f : α → β) (k : Keywords α) :
    (k.map f).itemPlaces = k.itemPlaces.map fun child => (child.1, f child.2) := by
  rcases h : k.items with _ | _ | as <;>
    simp [itemPlaces, map, Items.map, h, List.zipIdx_map, Function.comp_def]

lemma additionalSchema_map (f : α → β) (k : Keywords α) :
    (k.map f).additionalSchema = k.additionalSchema.map f := by
  rcases h : k.additional with _ | _ | _ <;> simp [additionalSchema, map, Additional.map, h]

lemma definitionPlaces_map (f : α → β) (k : Keywords α) :
    (k.map f).definitionPlaces = k.definitionPlaces.map fun child => (child.1, f child.2) := by
  rcases h : k.components with _ | _ <;>
    simp [definitionPlaces, sections, map, mapEntries, h, Function.comp_def]

lemma mem_definitionPlaces {k : Keywords α} {place : Place} {a : α}
    (h : (place, a) ∈ k.definitionPlaces) :
    ∃ group entries name, (group, entries) ∈ k.sections ∧ (name, a) ∈ entries ∧
      place = .definition group name := by
  obtain ⟨⟨group, entries⟩, hgroup, h⟩ := List.mem_flatMap.mp h
  obtain ⟨⟨name, a'⟩, hmem, heq⟩ := List.mem_map.mp h
  cases heq
  exact ⟨group, entries, name, hgroup, hmem, rfl⟩

section

/-- The schema stands at the place right below. -/
inductive Child (k : Keywords α) : Place → α → Prop
  | definition {group : Section} {entries : List (String × α)} {name : String} {a : α}
      (hgroup : (group, entries) ∈ k.sections) (h : (name, a) ∈ entries) :
      Child k (.definition group name) a
  | property {name : String} {a : α} (h : (name, a) ∈ k.properties) : Child k (.property name) a
  | pattern {regex : String} {a : α} (h : (regex, a) ∈ k.patterns) : Child k (.pattern regex) a
  | additional {a : α} (h : k.additional = some (.schema a)) : Child k .additional a
  | dictionaryKey {a : α} (h : k.dictionaryKey = some a) : Child k .dictionaryKey a
  | each {a : α} (h : k.items = some (.each a)) : Child k .items a
  | tuple {as : List α} {i : ℕ} {a : α} (hitems : k.items = some (.tuple as))
      (h : as[i]? = some a) : Child k (.item i) a
  | allOf {i : ℕ} {a : α} (h : k.allOf[i]? = some a) : Child k (.allOf i) a
  | anyOf {i : ℕ} {a : α} (h : k.anyOf[i]? = some a) : Child k (.anyOf i) a
  | oneOf {i : ℕ} {a : α} (h : k.oneOf[i]? = some (some a)) : Child k (.oneOf i) a

variable {k : Keywords α} {place : Place} {a : α}

lemma additionalSchema_eq_some : k.additionalSchema = some a ↔ k.additional = some (.schema a) := by
  rcases h : k.additional with _ | _ | _ <;> simp [additionalSchema, h]

lemma mem_zipIdx_places {as : List α} {f : ℕ → Place} :
    (place, a) ∈ (as.zipIdx.map fun part => (f part.2, part.1)) ↔
      ∃ i, place = f i ∧ as[i]? = some a := by
  constructor
  · intro h
    obtain ⟨⟨a', i⟩, hmem, heq⟩ := List.mem_map.mp h
    cases heq
    exact ⟨i, rfl, List.mem_zipIdx_iff_getElem?.mp hmem⟩
  · rintro ⟨i, rfl, h⟩
    exact List.mem_map.mpr ⟨(a, i), List.mem_zipIdx_iff_getElem?.mpr h, rfl⟩

lemma child_of_mem_children (h : (place, a) ∈ k.children) : k.Child place a := by
  simp only [children, List.mem_append, or_assoc] at h
  rcases h with h | h | h | h | h | h | h | h | h
  · obtain ⟨group, entries, name, hgroup, hmem, rfl⟩ := mem_definitionPlaces h
    exact .definition hgroup hmem
  · obtain ⟨⟨name, _⟩, hmem, heq⟩ := List.mem_map.mp h
    cases heq
    exact .property hmem
  · obtain ⟨⟨regex, _⟩, hmem, heq⟩ := List.mem_map.mp h
    cases heq
    exact .pattern hmem
  · obtain ⟨_, hs, heq⟩ := Option.map_eq_some_iff.mp (Option.mem_toList.mp h)
    cases heq
    exact .additional (additionalSchema_eq_some.mp hs)
  · obtain ⟨_, hs, heq⟩ := Option.map_eq_some_iff.mp (Option.mem_toList.mp h)
    cases heq
    exact .dictionaryKey hs
  · rw [itemPlaces] at h
    split at h
    · cases List.mem_singleton.mp h
      exact .each ‹_›
    · obtain ⟨i, rfl, ha⟩ := mem_zipIdx_places.mp h
      exact .tuple ‹_› ha
    · cases h
  · obtain ⟨i, rfl, ha⟩ := mem_zipIdx_places.mp h
    exact .allOf ha
  · obtain ⟨i, rfl, ha⟩ := mem_zipIdx_places.mp h
    exact .anyOf ha
  · obtain ⟨⟨entry, i⟩, hmem, heq⟩ := List.mem_filterMap.mp h
    obtain ⟨_, rfl, heq⟩ := Option.map_eq_some_iff.mp heq
    cases heq
    exact .oneOf (List.mem_zipIdx_iff_getElem?.mp hmem)

lemma Child.mem_children (h : k.Child place a) : (place, a) ∈ k.children := by
  simp only [children, List.mem_append]
  cases h with
  | @definition group entries name _ hgroup h =>
    have hplace : (Place.definition group name, a) ∈ k.definitionPlaces :=
      List.mem_flatMap.mpr ⟨(group, entries), hgroup, List.mem_map.mpr ⟨(name, a), h, rfl⟩⟩
    tauto
  | @property name _ h =>
    have hplace : (Place.property name, a) ∈
        k.properties.map fun entry => (.property entry.1, entry.2) :=
      List.mem_map.mpr ⟨(name, a), h, rfl⟩
    tauto
  | @pattern regex _ h =>
    have hplace : (Place.pattern regex, a) ∈
        k.patterns.map fun entry => (.pattern entry.1, entry.2) :=
      List.mem_map.mpr ⟨(regex, a), h, rfl⟩
    tauto
  | additional h => simp [additionalSchema_eq_some.mpr h]
  | dictionaryKey h => simp [h]
  | each h => simp [itemPlaces, h]
  | @tuple as i _ hitems h =>
    have hplace : (Place.item i, a) ∈ k.itemPlaces := by
      rw [itemPlaces, hitems]
      exact mem_zipIdx_places.mpr ⟨i, rfl, h⟩
    tauto
  | @allOf i _ h =>
    have hplace : (Place.allOf i, a) ∈ k.allOf.zipIdx.map fun part => (.allOf part.2, part.1) :=
      mem_zipIdx_places.mpr ⟨i, rfl, h⟩
    tauto
  | @anyOf i _ h =>
    have hplace : (Place.anyOf i, a) ∈ k.anyOf.zipIdx.map fun part => (.anyOf part.2, part.1) :=
      mem_zipIdx_places.mpr ⟨i, rfl, h⟩
    tauto
  | @oneOf i _ h =>
    have hplace : (Place.oneOf i, a) ∈ k.oneOf.zipIdx.filterMap fun entry =>
        entry.1.map fun a => (.oneOf entry.2, a) :=
      List.mem_filterMap.mpr ⟨(some a, i), List.mem_zipIdx_iff_getElem?.mpr h, rfl⟩
    tauto

end

lemma oneOfPlaces_map (f : α → β) (entries : List (Option α)) :
    ((entries.map (Option.map f)).zipIdx.filterMap fun (entry, i) =>
      entry.map fun b => (Place.oneOf i, b)) =
    (entries.zipIdx.filterMap fun (entry, i) => entry.map fun a => (Place.oneOf i, a)).map
      fun child => (child.1, f child.2) := by
  rw [List.zipIdx_map, List.filterMap_map, List.map_filterMap]
  congr 1
  funext ⟨entry, i⟩
  cases entry <;> rfl

lemma children_map (f : α → β) (k : Keywords α) :
    (k.map f).children = k.children.map fun child => (child.1, f child.2) := by
  rw [children, children, definitionPlaces_map, itemPlaces_map, additionalSchema_map]
  simp only [List.map_append]
  refine congrArg₂ (· ++ ·) ?_ (oneOfPlaces_map f k.oneOf)
  simp only [map, mapEntries, List.zipIdx_map, List.map_map]
  cases k.additionalSchema <;> cases k.dictionaryKey <;> rfl

/-- The keywords with what a function gives for its place instead of each schema below. -/
def relabel (h : Place → β) (k : Keywords α) : Keywords β :=
  { k with
    properties := k.properties.map fun entry => (entry.1, h (.property entry.1))
    additional := k.additional.map (Additional.map fun _ => h .additional)
    patterns := k.patterns.map fun entry => (entry.1, h (.pattern entry.1))
    dictionaryKey := k.dictionaryKey.map fun _ => h .dictionaryKey
    items := k.items.map fun
      | .each _ => .each (h .items)
      | .tuple as => .tuple (as.zipIdx.map fun item => h (.item item.2))
    allOf := k.allOf.zipIdx.map fun part => h (.allOf part.2)
    oneOf := k.oneOf.zipIdx.map fun entry => entry.1.map fun _ => h (.oneOf entry.2)
    anyOf := k.anyOf.zipIdx.map fun part => h (.anyOf part.2)
    definitions :=
      k.definitions.map fun entry => (entry.1, h (.definition .definitions entry.1))
    defs := k.defs.map fun entry => (entry.1, h (.definition .defs entry.1))
    components := k.components.map
      (List.map fun entry => (entry.1, h (.definition .components entry.1))) }

section

variable {m : Type → Type} [Monad m] {δ : Type} (g : α → β)

lemma traverseOption_map (f : β → m δ) (a : Option α) :
    traverseOption f (a.map g) = traverseOption (fun a => f (g a)) a := by
  cases a <;> rfl

variable [LawfulMonad m]

lemma traverseEntries_map (f : String → β → m δ) (entries : List (String × α)) :
    traverseEntries f (mapEntries g entries) =
      traverseEntries (fun name a => f name (g a)) entries := by
  rw [traverseEntries, traverseEntries, mapEntries, List.mapM_map]
  rfl

lemma traverseList_map (f : ℕ → β → m δ) (as : List α) :
    traverseList f (as.map g) = traverseList (fun i a => f i (g a)) as := by
  rw [traverseList, traverseList, List.zipIdx_map, List.mapM_map]
  rfl

lemma traverse_map (f : Place → β → m δ) (k : Keywords α) :
    (k.map g).traverse f = k.traverse fun place a => f place (g a) := by
  have hadditional : traverseAdditional (f .additional) (k.map g).additional =
      traverseAdditional (fun a => f .additional (g a)) k.additional := by
    rw [map]
    rcases k.additional with _ | _ | _ <;> rfl
  have hitems : traverseItems f (k.map g).items =
      traverseItems (fun place a => f place (g a)) k.items := by
    rw [map]
    rcases k.items with _ | _ | as
    · rfl
    · rfl
    · simp only [Option.map_some, Items.map, traverseItems, traverseList_map]
  have hcomponents (f : String → β → m δ) :
      traverseOption (traverseEntries f) (k.map g).components =
        traverseOption (traverseEntries fun name a => f name (g a)) k.components := by
    rw [map]
    cases k.components with
    | none => rfl
    | some entries => simp only [Option.map_some, traverseOption, traverseEntries_map]
  rw [traverse, traverse, hadditional, hitems, hcomponents]
  simp only [map, traverseEntries_map, traverseOption_map, traverseList_map]

end

end Keywords

namespace Schema

variable {β : Type} (onRef : String → β) (onInline : Keywords (Schema × β) → β)

lemma foldEntries_eq (entries : List (String × Schema)) :
    foldEntries onRef onInline entries =
      Keywords.mapEntries (fun s => (s, fold onRef onInline s)) entries := by
  induction entries with
  | nil => rfl
  | cons entry rest ih =>
    rw [foldEntries, ih]
    rfl

lemma foldList_eq (schemas : List Schema) :
    foldList onRef onInline schemas = schemas.map fun s => (s, fold onRef onInline s) := by
  induction schemas with
  | nil => rfl
  | cons s rest ih => rw [foldList, ih, List.map_cons]

lemma foldOption_eq (entry : Option Schema) :
    foldOption onRef onInline entry = entry.map fun s => (s, fold onRef onInline s) := by
  cases entry <;> rfl

lemma foldOptions_eq (entries : List (Option Schema)) :
    foldOptions onRef onInline entries =
      entries.map (Option.map fun s => (s, fold onRef onInline s)) := by
  induction entries with
  | nil => rfl
  | cons entry rest ih => rw [foldOptions, ih, foldOption_eq, List.map_cons]

lemma foldAdditional_eq (additional : Option (Additional Schema)) :
    foldAdditional onRef onInline additional =
      additional.map (Additional.map fun s => (s, fold onRef onInline s)) := by
  rcases additional with _ | _ | _ <;> rfl

lemma foldItems_eq (items : Option (Items Schema)) :
    foldItems onRef onInline items =
      items.map (Items.map fun s => (s, fold onRef onInline s)) := by
  rcases items with _ | _ | ss
  · rfl
  · rfl
  · simp only [foldItems, foldList_eq, Option.map_some, Items.map]

lemma foldSection_eq (entries : Option (List (String × Schema))) :
    foldSection onRef onInline entries =
      entries.map (Keywords.mapEntries fun s => (s, fold onRef onInline s)) := by
  cases entries with
  | none => rfl
  | some entries => simp only [foldSection, foldEntries_eq, Option.map_some]

lemma fold_inline (k : Keywords Schema) :
    fold onRef onInline (.inline k) =
      onInline (k.map fun s => (s, fold onRef onInline s)) := by
  rw [fold]
  cases k
  simp only [foldKeywords, Keywords.map, foldEntries_eq, foldList_eq, foldOption_eq,
    foldOptions_eq, foldAdditional_eq, foldItems_eq, foldSection_eq]

lemma sizeOf_lt_of_mem_entries {entries : List (String × Schema)} {name : String} {s : Schema}
    (h : (name, s) ∈ entries) : sizeOf s < sizeOf entries := by
  have hmem := List.sizeOf_lt_of_mem h
  simp only [Prod.mk.sizeOf_spec] at hmem
  omega

lemma sizeOf_lt_of_child {k : Keywords Schema} {place : Place} {s : Schema}
    (h : k.Child place s) : sizeOf s < sizeOf (inline k) := by
  cases k with
  | mk types format title description nullable xNullable properties required additional patterns
      dictionaryKey items allOf oneOf anyOf discriminator enumeration definitions defs components
      extra =>
    simp only [inline.sizeOf_spec, Keywords.mk.sizeOf_spec]
    cases h with
    | definition hgroup h =>
      have hlt := sizeOf_lt_of_mem_entries h
      simp only [Keywords.sections, List.mem_cons, Prod.mk.injEq, List.not_mem_nil,
        or_false] at hgroup
      rcases hgroup with ⟨_, rfl⟩ | ⟨_, rfl⟩ | ⟨_, rfl⟩
      · omega
      · omega
      · cases components with
        | none => simp at h
        | some entries =>
          simp only [Option.getD_some] at hlt
          simp only [Option.some.sizeOf_spec]
          omega
    | property h | pattern h =>
      have hlt := sizeOf_lt_of_mem_entries h
      dsimp only at hlt
      omega
    | additional h =>
      cases h
      simp only [Option.some.sizeOf_spec, Additional.schema.sizeOf_spec]
      omega
    | dictionaryKey h =>
      cases h
      simp only [Option.some.sizeOf_spec]
      omega
    | each h =>
      cases h
      simp only [Option.some.sizeOf_spec, Items.each.sizeOf_spec]
      omega
    | tuple hitems h =>
      cases hitems
      have hlt := List.sizeOf_lt_of_mem (List.mem_of_getElem? h)
      simp only [Option.some.sizeOf_spec, Items.tuple.sizeOf_spec]
      omega
    | allOf h | anyOf h =>
      have hlt := List.sizeOf_lt_of_mem (List.mem_of_getElem? h)
      dsimp only at hlt
      omega
    | oneOf h =>
      have hlt := List.sizeOf_lt_of_mem (List.mem_of_getElem? h)
      simp only [Option.some.sizeOf_spec] at hlt
      omega

theorem induct {P : Schema → Prop} (ref : ∀ target, P (.ref target))
    (inline : ∀ k : Keywords Schema, (∀ place s, (place, s) ∈ k.children → P s) → P (.inline k))
    (s : Schema) : P s :=
  match s with
  | .ref target => ref target
  | .inline k => inline k fun _ child _ => induct ref inline child
termination_by sizeOf s
decreasing_by exact sizeOf_lt_of_child (Keywords.child_of_mem_children ‹_›)

end Schema

end SchemaTypes
