import SchemaTypes.Graph.Lowering
import SchemaTypes.Proofs.Schema.Children
import Mathlib.Data.List.Nodup

/-! The positions of a document: the paths at which schemas stand. The definitions come first, in
the order in which they are declared, and then all others, each after those below it. -/

namespace SchemaTypes

/-- `At s path t` says that `t` stands at `path` below `s`. -/
inductive Schema.At : Schema → Path → Schema → Prop
  | here (s : Schema) : At s [] s
  | child {k : Keywords Schema} {place : Place} {s t : Schema} {path : Path}
      (hmem : (place, s) ∈ k.children) (ht : At s path t) : At (.inline k) (place :: path) t

def Place.isDefinition : Place → Bool
  | definition _ _ => true
  | _ => false

def Path.isDefinition (path : Path) : Bool := path.getLast?.any Place.isDefinition

def Path.isProperty (path : Path) : Bool := path.getLast?.any Place.isProperty

/-- No keyword with named schemas gives a name twice. -/
structure Keywords.DistinctKeys {α : Type} (k : Keywords α) : Prop where
  properties : (k.properties.map (·.1)).Nodup
  patterns : (k.patterns.map (·.1)).Nodup
  definitions : (k.definitions.map (·.1)).Nodup
  defs : (k.defs.map (·.1)).Nodup
  components : ((k.components.getD []).map (·.1)).Nodup

def Schema.DistinctKeys (s : Schema) : Prop :=
  ∀ path k, s.At path (.inline k) → k.DistinctKeys

/-- The keyword of a place, by its number in the order of the children. -/
def Place.rank : Place → ℕ
  | definition .definitions _ => 0
  | definition .defs _ => 1
  | definition .components _ => 2
  | property _ => 3
  | pattern _ => 4
  | additional => 5
  | dictionaryKey => 6
  | items => 7
  | item _ => 7
  | allOf _ => 8
  | anyOf _ => 9
  | oneOf _ => 10

namespace Keywords

variable {α : Type}

def PlacesFrom (rank : ℕ) (children : List (Place × α)) : Prop :=
  (children.map (·.1)).Nodup ∧ ∀ child ∈ children, rank ≤ child.1.rank

lemma PlacesFrom.append {rank : ℕ} {first later : List (Place × α)}
    (hfirst : (first.map (·.1)).Nodup) (hrank : ∀ child ∈ first, child.1.rank = rank)
    (hlater : PlacesFrom (rank + 1) later) : PlacesFrom rank (first ++ later) := by
  constructor
  · rw [List.map_append]
    refine List.nodup_append.mpr ⟨hfirst, hlater.1, ?_⟩
    intro place hplace other hother heq
    obtain ⟨child, hmem, rfl⟩ := List.mem_map.mp hplace
    obtain ⟨child', hmem', rfl⟩ := List.mem_map.mp hother
    have hle := hlater.2 child' hmem'
    rw [← heq, hrank child hmem] at hle
    omega
  · intro child hmem
    rcases List.mem_append.mp hmem with hmem | hmem
    · exact Nat.le_of_eq (hrank child hmem).symm
    · exact Nat.le_of_succ_le (hlater.2 child hmem)

lemma PlacesFrom.entries {rank : ℕ} {place : String → Place} {entries : List (String × α)}
    {later : List (Place × α)} (hinj : Function.Injective place)
    (hrank : ∀ name, (place name).rank = rank) (hkeys : (entries.map (·.1)).Nodup)
    (hlater : PlacesFrom (rank + 1) later) :
    PlacesFrom rank ((entries.map fun (name, a) => (place name, a)) ++ later) := by
  refine .append ?_ ?_ hlater
  · have h := hkeys.map hinj
    rwa [List.map_map] at h ⊢
  · intro child hmem
    obtain ⟨entry, _, rfl⟩ := List.mem_map.mp hmem
    exact hrank entry.1

lemma indexed_nodup {place : ℕ → Place} (hinj : Function.Injective place) (as : List α) :
    ((as.zipIdx.map fun (a, i) => (place i, a)).map (·.1)).Nodup := by
  have h := (List.nodup_range' (s := 0) (n := as.length)).map hinj
  rw [← List.zipIdx_map_snd 0 as, List.map_map] at h
  rwa [List.map_map]

lemma PlacesFrom.list {rank : ℕ} {place : ℕ → Place} {as : List α} {later : List (Place × α)}
    (hinj : Function.Injective place) (hrank : ∀ i, (place i).rank = rank)
    (hlater : PlacesFrom (rank + 1) later) :
    PlacesFrom rank ((as.zipIdx.map fun (a, i) => (place i, a)) ++ later) := by
  refine .append (indexed_nodup hinj as) ?_ hlater
  intro child hmem
  obtain ⟨item, _, rfl⟩ := List.mem_map.mp hmem
  exact hrank item.2

lemma PlacesFrom.option {rank : ℕ} {place : Place} {a : Option α} {later : List (Place × α)}
    (hrank : place.rank = rank) (hlater : PlacesFrom (rank + 1) later) :
    PlacesFrom rank ((a.map fun a => (place, a)).toList ++ later) := by
  cases a with
  | none => exact .append List.nodup_nil (by simp) hlater
  | some a => exact .append (List.nodup_singleton _) (by simp [hrank]) hlater

lemma itemPlaces_nodup (k : Keywords α) : (k.itemPlaces.map (·.1)).Nodup := by
  rw [itemPlaces]
  rcases k.items with _ | a | as
  · exact List.nodup_nil
  · exact List.nodup_singleton _
  · exact indexed_nodup (fun _ _ h => Place.item.inj h) as

lemma itemPlaces_rank (k : Keywords α) : ∀ child ∈ k.itemPlaces, child.1.rank = 7 := by
  intro child hmem
  rw [itemPlaces] at hmem
  split at hmem
  · rw [List.mem_singleton.mp hmem]
    rfl
  · obtain ⟨item, _, rfl⟩ := List.mem_map.mp hmem
    rfl
  · simp at hmem

lemma oneOfPlaces_sublist (entries : List (Option α)) (start : ℕ) :
    (((entries.zipIdx start).filterMap fun (entry, i) =>
      entry.map fun a => (Place.oneOf i, a)).map (·.1)).Sublist
      ((entries.zipIdx start).map fun item => Place.oneOf item.2) := by
  induction entries generalizing start with
  | nil => exact .slnil
  | cons entry rest ih =>
    rw [List.zipIdx_cons, List.map_cons]
    cases entry with
    | none => exact (ih (start + 1)).cons _
    | some a => exact (ih (start + 1)).cons_cons _

lemma oneOfPlaces_from (entries : List (Option α)) :
    PlacesFrom 10
      (entries.zipIdx.filterMap fun (entry, i) => entry.map fun a => (.oneOf i, a)) := by
  constructor
  · have h := indexed_nodup (fun _ _ h => Place.oneOf.inj h) entries
    rw [List.map_map] at h
    exact h.sublist (oneOfPlaces_sublist entries 0)
  · intro child hmem
    obtain ⟨⟨entry, i⟩, _, heq⟩ := List.mem_filterMap.mp hmem
    obtain ⟨a, _, rfl⟩ := Option.map_eq_some_iff.mp heq
    exact Nat.le_refl 10

lemma DistinctKeys.places_nodup {k : Keywords α} (h : k.DistinctKeys) :
    (k.children.map (·.1)).Nodup := by
  have hdefinitions : k.definitionPlaces =
      k.definitions.map (fun (name, a) => (.definition .definitions name, a)) ++
      k.defs.map (fun (name, a) => (.definition .defs name, a)) ++
      (k.components.getD []).map (fun (name, a) => (.definition .components name, a)) := by
    simp [definitionPlaces, sections]
  suffices PlacesFrom 0 k.children from this.1
  rw [children, hdefinitions]
  simp only [List.append_assoc]
  refine .entries (fun _ _ h => (Place.definition.inj h).2) (fun _ => rfl) h.definitions ?_
  refine .entries (fun _ _ h => (Place.definition.inj h).2) (fun _ => rfl) h.defs ?_
  refine .entries (fun _ _ h => (Place.definition.inj h).2) (fun _ => rfl) h.components ?_
  refine .entries (fun _ _ h => Place.property.inj h) (fun _ => rfl) h.properties ?_
  refine .entries (fun _ _ h => Place.pattern.inj h) (fun _ => rfl) h.patterns ?_
  refine .option rfl (.option rfl ?_)
  refine .append k.itemPlaces_nodup k.itemPlaces_rank ?_
  refine .list (fun _ _ h => Place.allOf.inj h) (fun _ => rfl) ?_
  refine .list (fun _ _ h => Place.anyOf.inj h) (fun _ => rfl) ?_
  exact oneOfPlaces_from k.oneOf

end Keywords

namespace Schema

/-- The paths below a schema at which no definition stands, in the order in which their nodes are
added. -/
def placed : Schema → Path → List Path :=
  fold (fun _ _ => []) fun k path =>
    k.children.flatMap fun (place, _, below) =>
      let path := path ++ [place]
      if place.isDefinition then below path else below path ++ [path]

lemma placed_inline (k : Keywords Schema) (path : Path) :
    placed (.inline k) path = k.children.flatMap fun child =>
      placed child.2 (path ++ [child.1]) ++
        if child.1.isDefinition then [] else [path ++ [child.1]] := by
  rw [placed, fold_inline]
  simp only [Keywords.children_map, List.flatMap_map]
  congr 1
  funext ⟨place, s⟩
  split <;> simp_all

lemma declared_inline (k : Keywords Schema) (path : Path) :
    declared (.inline k) path = k.children.flatMap fun child =>
      match child.1 with
      | .definition _ _ => (path ++ [child.1]) :: declared child.2 (path ++ [child.1])
      | .dictionaryKey => []
      | _ => declared child.2 (path ++ [child.1]) := by
  rw [declared, fold_inline, Keywords.children_map]
  exact List.flatMap_map _ _ _

lemma placed_at {s : Schema} {path p : Path} (h : p ∈ placed s path) :
    ∃ q t, p = path ++ q ∧ s.At q t ∧ q ≠ [] ∧ q.isDefinition = false := by
  induction s using induct generalizing path with
  | ref target => cases h
  | inline k ih =>
    rw [placed_inline] at h
    obtain ⟨⟨place, s⟩, hmem, h⟩ := List.mem_flatMap.mp h
    rcases List.mem_append.mp h with h | h
    · obtain ⟨q, t, rfl, hat, hne, hdef⟩ := ih place s hmem h
      refine ⟨place :: q, t, by simp, .child hmem hat, by simp, ?_⟩
      rwa [Path.isDefinition, List.getLast?_cons_of_ne_nil hne]
    · cases hplace : place.isDefinition with
      | true => simp [hplace] at h
      | false =>
        simp only [hplace, Bool.false_eq_true, ↓reduceIte, List.mem_singleton] at h
        subst h
        exact ⟨[place], s, rfl, .child hmem (.here s), by simp, by simpa [Path.isDefinition]⟩

lemma declared_at {s : Schema} {path p : Path} (h : p ∈ declared s path) :
    ∃ q t, p = path ++ q ∧ s.At q t ∧ q ≠ [] ∧ q.isDefinition := by
  induction s using induct generalizing path with
  | ref target => cases h
  | inline k ih =>
    rw [declared_inline] at h
    obtain ⟨⟨place, s⟩, hmem, h⟩ := List.mem_flatMap.mp h
    have hbelow (h : p ∈ declared s (path ++ [place])) :
        ∃ q t, p = path ++ q ∧ (inline k).At q t ∧ q ≠ [] ∧ q.isDefinition := by
      obtain ⟨q, t, rfl, hat, hne, hdef⟩ := ih place s hmem h
      refine ⟨place :: q, t, by simp, .child hmem hat, by simp, ?_⟩
      rwa [Path.isDefinition, List.getLast?_cons_of_ne_nil hne]
    cases place with
    | definition group name =>
      rcases List.mem_cons.mp h with rfl | h
      · exact ⟨_, s, rfl, .child hmem (.here s), by simp, rfl⟩
      · exact hbelow h
    | dictionaryKey => cases h
    | property | pattern | additional | items | item | allOf | anyOf | oneOf => exact hbelow h

lemma dictionaryKey_not_mem {s : Schema} {path p : Path} (h : p ∈ declared s path) :
    ∃ q, p = path ++ q ∧ .dictionaryKey ∉ q := by
  induction s using induct generalizing path with
  | ref target => cases h
  | inline k ih =>
    rw [declared_inline] at h
    obtain ⟨⟨place, s⟩, hmem, h⟩ := List.mem_flatMap.mp h
    have hbelow (hplace : .dictionaryKey ≠ place) (h : p ∈ declared s (path ++ [place])) :
        ∃ q, p = path ++ q ∧ .dictionaryKey ∉ q := by
      obtain ⟨q, rfl, hq⟩ := ih place s hmem h
      exact ⟨place :: q, by simp, by simp [hplace, hq]⟩
    cases place with
    | definition group name =>
      rcases List.mem_cons.mp h with rfl | h
      · exact ⟨[.definition group name], rfl, by simp⟩
      · exact hbelow (by simp) h
    | dictionaryKey => cases h
    | property | pattern | additional | items | item | allOf | anyOf | oneOf =>
      exact hbelow (by simp) h

lemma declared_of_at {s t : Schema} {path q : Path} (hat : s.At q t) (hdef : q.isDefinition)
    (hopen : .dictionaryKey ∉ q) : path ++ q ∈ declared s path := by
  induction hat generalizing path with
  | here => cases hdef
  | @child k place s t q hmem _ ih =>
    rw [declared_inline]
    refine List.mem_flatMap.mpr ⟨(place, s), hmem, ?_⟩
    have hbelow (hne : q ≠ []) : path ++ place :: q ∈ declared s (path ++ [place]) := by
      rw [Path.isDefinition, List.getLast?_cons_of_ne_nil hne] at hdef
      have h : path ++ [place] ++ q ∈ declared s (path ++ [place]) :=
        ih hdef fun h => hopen (List.mem_cons_of_mem _ h)
      rwa [List.append_assoc] at h
    by_cases hq : q = []
    · subst hq
      cases place with
      | definition => exact List.mem_cons_self
      | _ => cases hdef
    · cases place with
      | definition => exact List.mem_cons_of_mem _ (hbelow hq)
      | dictionaryKey => exact absurd List.mem_cons_self hopen
      | property | pattern | additional | items | item | allOf | anyOf | oneOf => exact hbelow hq

lemma DistinctKeys.child {k : Keywords Schema} (h : (inline k).DistinctKeys) {place : Place}
    {s : Schema} (hmem : (place, s) ∈ k.children) : s.DistinctKeys :=
  fun path below hat => h (place :: path) below (.child hmem hat)

lemma nodup_below (path : Path) {children : List (Place × Schema)}
    (hplaces : (children.map (·.1)).Nodup) {f : Place × Schema → List Path}
    (hbelow : ∀ child ∈ children, ∀ p ∈ f child, ∃ q, p = path ++ [child.1] ++ q)
    (hnodup : ∀ child ∈ children, (f child).Nodup) : (children.flatMap f).Nodup := by
  refine List.nodup_flatMap.mpr ⟨hnodup, ?_⟩
  have hpairwise := List.pairwise_map.mp hplaces
  refine hpairwise.imp_of_mem ?_
  intro a b ha hb hne p hpa hpb
  obtain ⟨q, hq⟩ := hbelow a ha p hpa
  obtain ⟨q', hq'⟩ := hbelow b hb p hpb
  have heq := hq.symm.trans hq'
  simp only [List.append_assoc, List.append_cancel_left_eq, List.cons_append] at heq
  exact hne (List.cons.inj heq).1

lemma placed_nodup {s : Schema} (hkeys : s.DistinctKeys) (path : Path) : (placed s path).Nodup := by
  induction s using induct generalizing path with
  | ref target => exact List.nodup_nil
  | inline k ih =>
    rw [placed_inline]
    refine nodup_below path (hkeys [] k (.here _)).places_nodup ?_ ?_
    · rintro ⟨place, s⟩ _ p hp
      rcases List.mem_append.mp hp with hp | hp
      · obtain ⟨q, _, rfl, _⟩ := placed_at hp
        exact ⟨q, rfl⟩
      · exact ⟨[], by rw [List.append_nil]; split at hp <;> simp_all⟩
    · rintro ⟨place, s⟩ hmem
      refine (ih place s hmem (hkeys.child hmem) _).append (by split <;> simp) ?_
      intro p hp hself
      obtain ⟨q, _, rfl, _, hne, _⟩ := placed_at hp
      split at hself
      · cases hself
      · exact hne (by simpa using hself)

lemma declared_nodup {s : Schema} (hkeys : s.DistinctKeys) (path : Path) :
    (declared s path).Nodup := by
  induction s using induct generalizing path with
  | ref target => exact List.nodup_nil
  | inline k ih =>
    rw [declared_inline]
    refine nodup_below path (hkeys [] k (.here _)).places_nodup ?_ ?_
    · rintro ⟨place, s⟩ _ p hp
      have hextends (hp : p ∈ declared s (path ++ [place])) : ∃ q, p = path ++ [place] ++ q := by
        obtain ⟨q, _, rfl, _⟩ := declared_at hp
        exact ⟨q, rfl⟩
      cases place with
      | definition group name =>
        rcases List.mem_cons.mp hp with rfl | hp
        · exact ⟨[], by rw [List.append_nil]⟩
        · exact hextends hp
      | dictionaryKey => cases hp
      | property | pattern | additional | items | item | allOf | anyOf | oneOf => exact hextends hp
    · rintro ⟨place, s⟩ hmem
      have hnodup := ih place s hmem (hkeys.child hmem) (path ++ [place])
      cases place with
      | definition group name =>
        refine List.nodup_cons.mpr ⟨?_, hnodup⟩
        intro hself
        obtain ⟨q, _, heq, _, hne, _⟩ := declared_at hself
        exact hne (by simpa using heq)
      | dictionaryKey => exact List.nodup_nil
      | property | pattern | additional | items | item | allOf | anyOf | oneOf => exact hnodup

end Schema

end SchemaTypes
