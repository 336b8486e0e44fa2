import SchemaTypes.Graph.Lowering
import SchemaTypes.Proofs.Schema.Children

/-! Lowering visits the children of a schema one after the other. If each visit gives the number
that is meant for its place and keeps an invariant on the children visited so far, the traversal
gives the meant numbers to all children. -/

namespace SchemaTypes

namespace Lowering

variable {γ δ : Type} {g g' : Graph}

lemma bind_eq_ok {x : Lowering γ} {f : γ → Lowering δ} {d : δ}
    (h : (x >>= f) g = .ok (d, g')) : ∃ c g₁, x g = .ok (c, g₁) ∧ f c g₁ = .ok (d, g') := by
  cases hx : x g with
  | error e =>
    simp only [bind, StateT.bind, hx, Except.bind] at h
    cases h
  | ok result =>
    simp only [bind, StateT.bind, hx] at h
    exact ⟨result.1, result.2, rfl, h⟩

lemma pure_eq_ok {c d : γ} (h : (pure c : Lowering γ) g = .ok (d, g')) : d = c ∧ g' = g := by
  cases h
  exact ⟨rfl, rfl⟩

section

variable {α : Type} (children : List (Place × α)) (I : List (Place × α) → Graph → Prop)

/-- From a graph with the invariant for the children visited before, an action that succeeds visits
these further ones and returns what is meant. -/
def Visits (x : Lowering δ) (visited : List (Place × α)) (meant : δ) : Prop :=
  ∀ before g d g', before ++ visited <+: children → I before g → x g = .ok (d, g') →
    d = meant ∧ I (before ++ visited) g'

variable {children I}

lemma Visits.pure (d : δ) : Visits children I (pure d) [] d := by
  intro before g d' g' _ hI h
  obtain ⟨rfl, rfl⟩ := pure_eq_ok h
  exact ⟨rfl, by rwa [List.append_nil]⟩

lemma Visits.bind {x : Lowering γ} {f : γ → Lowering δ} {first later : List (Place × α)}
    {c : γ} {d : δ} (hx : Visits children I x first c) (hf : Visits children I (f c) later d) :
    Visits children I (x >>= f) (first ++ later) d := by
  intro before g d' g' hprefix hI h
  obtain ⟨c', g₁, hxg, hfg⟩ := bind_eq_ok h
  rw [← List.append_assoc] at hprefix ⊢
  obtain ⟨rfl, hI₁⟩ := hx before g c' g₁ ((List.prefix_append _ _).trans hprefix) hI hxg
  exact hf _ g₁ d' g' hprefix hI₁ hfg

lemma Visits.map {x : Lowering γ} {visited : List (Place × α)} {c : γ} {d : δ} (f : γ → δ)
    (hx : Visits children I x visited c) (hd : f c = d) :
    Visits children I (x >>= fun c => Pure.pure (f c)) visited d := by
  subst hd
  have h := hx.bind (f := fun c => Pure.pure (f c)) (Visits.pure (f c))
  rwa [List.append_nil] at h

lemma Visits.mapM (xs : List γ) {f : γ → Lowering δ} {visited : γ → List (Place × α)}
    {meant : γ → δ} (h : ∀ x ∈ xs, Visits children I (f x) (visited x) (meant x)) :
    Visits children I (xs.mapM f) (xs.flatMap visited) (xs.map meant) := by
  induction xs with
  | nil => exact Visits.pure []
  | cons x xs ih =>
    rw [List.mapM_cons, List.flatMap_cons]
    refine (h x List.mem_cons_self).bind ?_
    exact (ih fun y hy => h y (List.mem_cons_of_mem _ hy)).map _ rfl

variable {f : Place → α → Lowering SchemaId} {number : Place → SchemaId}
  (hf : ∀ place a, Visits children I (f place a) [(place, a)] (number place))

include hf

lemma visits_entries (place : String → Place) (entries : List (String × α)) :
    Visits children I (Keywords.traverseEntries (fun name => f (place name)) entries)
      (entries.map fun (name, a) => (place name, a))
      (entries.map fun entry => (entry.1, number (place entry.1))) := by
  have h := Visits.mapM entries fun entry _ =>
    (hf (place entry.1) entry.2).map (fun b => (entry.1, b)) rfl
  rwa [← List.map_eq_flatMap] at h

lemma visits_list (place : ℕ → Place) (as : List α) :
    Visits children I (Keywords.traverseList (fun i => f (place i)) as)
      (as.zipIdx.map fun (a, i) => (place i, a))
      (as.zipIdx.map fun item => number (place item.2)) := by
  have h := Visits.mapM as.zipIdx fun item _ => hf (place item.2) item.1
  rwa [← List.map_eq_flatMap] at h

lemma visits_option (place : Place) (a : Option α) :
    Visits children I (Keywords.traverseOption (f place) a)
      (a.map fun a => (place, a)).toList (a.map fun _ => number place) := by
  cases a with
  | none => exact Visits.pure none
  | some a => exact (hf place a).map some rfl

lemma visits_oneOf (entries : List (Option α)) :
    Visits children I (Keywords.traverseList (fun i => Keywords.traverseOption (f (.oneOf i)))
        entries)
      (entries.zipIdx.filterMap fun (entry, i) => entry.map fun a => (.oneOf i, a))
      (entries.zipIdx.map fun entry => entry.1.map fun _ => number (.oneOf entry.2)) := by
  have h := Visits.mapM entries.zipIdx fun entry _ => visits_option hf (.oneOf entry.2) entry.1
  rwa [List.filterMap_eq_flatMap_toList]

lemma visits_additional (k : Keywords α) :
    Visits children I (Keywords.traverseAdditional (f .additional) k.additional)
      (k.additionalSchema.map fun a => (.additional, a)).toList
      (k.additional.map (Additional.map fun _ => number .additional)) := by
  rw [Keywords.additionalSchema]
  rcases k.additional with _ | flag | a
  · exact Visits.pure none
  · exact Visits.pure _
  · exact (hf .additional a).map _ rfl

lemma visits_items (k : Keywords α) :
    Visits children I (Keywords.traverseItems f k.items) k.itemPlaces
      (k.items.map fun
        | .each _ => .each (number .items)
        | .tuple as => .tuple (as.zipIdx.map fun item => number (.item item.2))) := by
  rw [Keywords.itemPlaces]
  rcases k.items with _ | a | as
  · exact Visits.pure none
  · exact (hf .items a).map _ rfl
  · exact (visits_list hf .item as).map _ rfl

lemma visits_components (k : Keywords α) :
    Visits children I (Keywords.traverseOption
        (Keywords.traverseEntries fun name => f (.definition .components name)) k.components)
      ((k.components.getD []).map fun (name, a) => (.definition .components name, a))
      (k.components.map
        (List.map fun entry => (entry.1, number (.definition .components entry.1)))) := by
  cases k.components with
  | none => exact Visits.pure none
  | some entries => exact (visits_entries hf (.definition .components) entries).map some rfl

lemma visits_traverse (k : Keywords α) :
    Visits children I (k.traverse f) k.children (k.relabel number) := by
  have hdefinitions : k.definitionPlaces =
      k.definitions.map (fun (name, a) => (.definition .definitions name, a)) ++
      k.defs.map (fun (name, a) => (.definition .defs name, a)) ++
      (k.components.getD []).map (fun (name, a) => (.definition .components name, a)) := by
    simp [Keywords.definitionPlaces, Keywords.sections]
  rw [Keywords.children, hdefinitions]
  simp only [List.append_assoc]
  refine (visits_entries hf (.definition .definitions) k.definitions).bind ?_
  refine (visits_entries hf (.definition .defs) k.defs).bind ?_
  refine (visits_components hf k).bind ?_
  refine (visits_entries hf .property k.properties).bind ?_
  refine (visits_entries hf .pattern k.patterns).bind ?_
  refine (visits_additional hf k).bind ?_
  refine (visits_option hf .dictionaryKey k.dictionaryKey).bind ?_
  refine (visits_items hf k).bind ?_
  refine (visits_list hf .allOf k.allOf).bind ?_
  refine (visits_list hf .anyOf k.anyOf).bind ?_
  exact (visits_oneOf hf k.oneOf).map _ rfl

end

end Lowering

end SchemaTypes
