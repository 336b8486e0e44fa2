import SchemaTypes.Proofs.Graph.Lowering
import Mathlib.Data.List.Perm.Subperm

/-! The numbers that the nodes of a loaded graph name are numbers of nodes, and a reference is
nothing but a reference. -/

namespace SchemaTypes

lemma length_le_of_lt {n : ℕ} {numbers : List ℕ} (hnodup : numbers.Nodup)
    (hlt : ∀ i ∈ numbers, i < n) : numbers.length ≤ n := by
  have hsub : numbers ⊆ List.range n := fun i hi => List.mem_range.mpr (hlt i hi)
  have hle := (hnodup.subperm hsub).length_le
  rwa [List.length_range] at hle

lemma Schema.At.concat {s t : Schema} {k : Keywords Schema} {path : Path} {place : Place}
    (h : s.At path (.inline k)) (hmem : (place, t) ∈ k.children) : s.At (path ++ [place]) t := by
  generalize hk : Schema.inline k = u at h
  induction h with
  | here s =>
    subst hk
    exact .child hmem (.here t)
  | child hchild _ ih => exact .child hchild (ih hk)

namespace Node

structure Within (n : ℕ) (node : Node) : Prop where
  reference : ∀ id ∈ node.reference, id < n
  properties : ∀ e ∈ node.properties, e.2 < n
  additional : ∀ id ∈ node.additional, id < n
  patterns : ∀ e ∈ node.patterns, e.2 < n
  dictionaryKey : ∀ id ∈ node.dictionaryKey, id < n
  each : ∀ id, node.items = some (.each id) → id < n
  tuple : ∀ ids, node.items = some (.tuple ids) → ∀ id ∈ ids, id < n
  allOf : ∀ id ∈ node.allOf, id < n
  anyOf : ∀ id ∈ node.anyOf, id < n
  oneOf : ∀ id, some id ∈ node.oneOf → id < n
  members : ∀ id, .schema id ∈ node.enumeration → id < n
  discriminator : ∀ d ∈ node.discriminator, ∀ e ∈ d.mapping, e.2 < n
  definitions : ∀ e ∈ node.definitions, e.2 < n

lemma Within.mono {n m : ℕ} {node : Node} (h : node.Within n) (hle : n ≤ m) : node.Within m where
  reference id hid := Nat.lt_of_lt_of_le (h.reference id hid) hle
  properties e he := Nat.lt_of_lt_of_le (h.properties e he) hle
  additional id hid := Nat.lt_of_lt_of_le (h.additional id hid) hle
  patterns e he := Nat.lt_of_lt_of_le (h.patterns e he) hle
  dictionaryKey id hid := Nat.lt_of_lt_of_le (h.dictionaryKey id hid) hle
  each id hid := Nat.lt_of_lt_of_le (h.each id hid) hle
  tuple ids hids id hid := Nat.lt_of_lt_of_le (h.tuple ids hids id hid) hle
  allOf id hid := Nat.lt_of_lt_of_le (h.allOf id hid) hle
  anyOf id hid := Nat.lt_of_lt_of_le (h.anyOf id hid) hle
  oneOf id hid := Nat.lt_of_lt_of_le (h.oneOf id hid) hle
  members id hid := Nat.lt_of_lt_of_le (h.members id hid) hle
  discriminator d hd e he := Nat.lt_of_lt_of_le (h.discriminator d hd e he) hle
  definitions e he := Nat.lt_of_lt_of_le (h.definitions e he) hle

lemma within_empty (n : ℕ) : ({} : Node).Within n := by
  constructor <;> simp

lemma within_reference {n : ℕ} {target : SchemaId} (h : target < n) (isProperty : Bool) :
    ({ reference := some target, isProperty } : Node).Within n := by
  refine { within_empty n with reference := fun id hid => ?_ }
  rw [Option.mem_some_iff] at hid
  exact hid ▸ h

end Node

section Numbers

variable {α : Type} {n : ℕ} {number : Place → SchemaId}

lemma entries_lt {entries : List (String × α)} {place : String → Place}
    (h : ∀ name a, (name, a) ∈ entries → number (place name) < n) :
    ∀ e ∈ entries.map fun entry => (entry.1, number (place entry.1)), e.2 < n := by
  intro e he
  obtain ⟨⟨name, a⟩, hmem, rfl⟩ := List.mem_map.mp he
  exact h name a hmem

lemma option_lt {a : Option α} {id : SchemaId} (h : ∀ x, a = some x → id < n) :
    ∀ other ∈ a.map fun _ => id, other < n := by
  intro other hother
  obtain ⟨x, hx, rfl⟩ := Option.map_eq_some_iff.mp hother
  exact h x hx

lemma positions_lt {as : List α} {place : ℕ → Place}
    (h : ∀ i a, as[i]? = some a → number (place i) < n) :
    ∀ id ∈ (List.range as.length).map fun i => number (place i), id < n := by
  intro id hid
  obtain ⟨i, hi, rfl⟩ := List.mem_map.mp hid
  exact h i _ (List.getElem?_eq_getElem (List.mem_range.mp hi))

lemma alternatives_lt {entries : List (Option α)}
    (h : ∀ i a, entries[i]? = some (some a) → number (.oneOf i) < n) :
    ∀ id, some id ∈ (entries.zipIdx.map fun (entry, i) => entry.map fun _ => number (.oneOf i)) →
      id < n := by
  intro id hid
  obtain ⟨⟨entry, i⟩, hmem, heq⟩ := List.mem_map.mp hid
  obtain ⟨a, rfl, rfl⟩ := Option.map_eq_some_iff.mp heq
  exact h i a (List.mem_zipIdx_iff_getElem?.mp hmem)

lemma Keywords.numberedDefinitions_lt {k : Keywords α}
    (h : ∀ place a, k.Child place a → number place < n) :
    ∀ e ∈ k.numberedDefinitions number, e.2 < n := by
  intro e he
  obtain ⟨⟨group, entries⟩, hgroup, he⟩ := List.mem_flatMap.mp he
  exact entries_lt (fun _ a hmem => h _ a (.definition hgroup hmem)) e he

end Numbers

lemma Node.HoldsKeywords.within {root k : Keywords Schema} {number : Place → SchemaId}
    {node : Node} {n : ℕ} (hholds : node.HoldsKeywords root number k)
    (h : ∀ place a, k.Child place a → number place < n)
    (hdiscriminator : ∀ d ∈ node.discriminator, ∀ e ∈ d.mapping, e.2 < n) : node.Within n := by
  constructor
  case reference => simp [hholds.reference]
  case properties =>
    rw [hholds.properties]
    exact entries_lt fun _ a hmem => h _ a (.property hmem)
  case additional =>
    rw [hholds.additional]
    exact option_lt fun a ha => h _ a (.additional (Keywords.additionalSchema_eq_some.mp ha))
  case patterns =>
    rw [hholds.patterns]
    exact entries_lt fun _ a hmem => h _ a (.pattern hmem)
  case dictionaryKey =>
    rw [hholds.dictionaryKey]
    exact option_lt fun a ha => h _ a (.dictionaryKey ha)
  case each =>
    intro id hid
    rw [hholds.items] at hid
    obtain ⟨items, hitems, heq⟩ := Option.map_eq_some_iff.mp hid
    cases items with
    | each a =>
      cases heq
      exact h _ a (.each hitems)
    | tuple as => cases heq
  case tuple =>
    intro ids hids
    rw [hholds.items] at hids
    obtain ⟨items, hitems, heq⟩ := Option.map_eq_some_iff.mp hids
    cases items with
    | each a => cases heq
    | tuple as =>
      cases heq
      exact positions_lt fun _ a ha => h _ a (.tuple hitems ha)
  case allOf =>
    rw [hholds.allOf]
    exact positions_lt fun _ a ha => h _ a (.allOf ha)
  case anyOf =>
    rw [hholds.anyOf]
    exact positions_lt fun _ a ha => h _ a (.anyOf ha)
  case oneOf =>
    rw [hholds.oneOf]
    exact alternatives_lt fun _ a ha => h _ a (.oneOf ha)
  case members => simp [hholds.enumeration]
  case discriminator => exact hdiscriminator
  case definitions =>
    exact fun e he => Keywords.numberedDefinitions_lt h e (hholds.definitions_sublist.subset he)

/-- Every number that a node names is the number of a node. -/
def Graph.Closed (g : Graph) : Prop := ∀ id, (g.node id).Within g.size

namespace Document.Represents

variable {root : Keywords Schema} {d : Document}

lemma points_lt (h : d.Represents root) {target : String} {id : SchemaId}
    (hid : root.Points target id) : id < d.graph.size := by
  obtain ⟨path, t, _, _, hat, _, rfl⟩ := hid
  exact h.number_lt path t hat

lemma denotes_lt (h : d.Represents root) {target : String} {id : SchemaId}
    (hid : root.Denotes target id) : id < d.graph.size := by
  rw [Keywords.Denotes] at hid
  split at hid
  · exact h.points_lt hid
  · obtain ⟨before, after, heq, _⟩ := List.lookup_eq_some_iff.mp hid
    have hmem : (target, id) ∈ root.numberedDefinitions fun place => root.number [place] := by
      simp [heq]
    have hchild (place : Place) (s : Schema) (hmem : root.Child place s) :
        root.number [place] < d.graph.size :=
      h.number_lt _ s (Schema.At.concat (.here _) hmem.mem_children)
    exact Keywords.numberedDefinitions_lt hchild _ hmem

lemma discriminator_lt (h : d.Represents root) {alternatives : List (Option Schema)}
    {form : Option DiscriminatorForm} {found : Option (Discriminator SchemaId)}
    (hfound : Discriminator.Represents root alternatives form found) :
    ∀ discriminator ∈ found, ∀ e ∈ discriminator.mapping, e.2 < d.graph.size := by
  intro discriminator hsome e he
  rcases form with _ | property | ⟨property, _ | ⟨target, targets⟩⟩
  · rw [Discriminator.Represents] at hfound
    simp [hfound] at hsome
  · rw [Discriminator.Represents] at hfound
    rw [hfound, Option.mem_some_iff] at hsome
    simp [← hsome] at he
  · obtain ⟨mapping, rfl, entries, rfl, hentries⟩ := hfound
    rw [Option.mem_some_iff] at hsome
    subst hsome
    obtain ⟨entry, hentry, heq⟩ := Entries.snd_of_mem_ofList he
    obtain ⟨_, _, hpoints⟩ := Except.exists_of_forall₂_right hentries hentry
    rw [heq]
    exact h.points_lt hpoints.2
  · obtain ⟨mapping, rfl, hmapping⟩ := hfound
    rw [Option.mem_some_iff] at hsome
    subst hsome
    obtain ⟨_, _, hdenotes⟩ := Except.exists_of_forall₂_right hmapping he
    exact h.denotes_lt hdenotes.2

lemma closed (h : d.Represents root) : d.graph.Closed := by
  intro id
  by_cases hlt : id < d.graph.size
  case neg =>
    rw [Graph.node_of_size_le (Nat.le_of_not_lt hlt)]
    exact Node.within_empty _
  obtain ⟨path, t, hat, rfl⟩ := h.number_surj id hlt
  have hnode := h.node path t hat
  cases t with
  | ref target =>
    obtain ⟨id', hpoints, heq⟩ := hnode
    rw [heq]
    exact Node.within_reference (h.points_lt hpoints) _
  | inline k =>
    obtain ⟨hholds, _⟩ := hnode
    have hchild (place : Place) (s : Schema) (hmem : k.Child place s) :
        root.number (path ++ [place]) < d.graph.size :=
      h.number_lt _ s (hat.concat hmem.mem_children)
    exact hholds.within hchild (h.discriminator_lt hholds.discriminator)

end Document.Represents

end SchemaTypes
