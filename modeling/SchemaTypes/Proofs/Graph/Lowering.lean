import SchemaTypes.Proofs.Graph.Nodes
import SchemaTypes.Proofs.Graph.Representation
import SchemaTypes.Proofs.Graph.Traversal

/-! Lowering gives each position of a document the node that represents it. Below a schema the
definitions are put at the numbers kept for them and all other nodes are added at the end, in the
order of their positions. -/

namespace SchemaTypes

namespace Keywords

variable {root : Keywords Schema}

def Stretch (root : Keywords Schema) (start : ℕ) (paths : List Path) : Prop :=
  ∃ before after, root.positions = before ++ paths ++ after ∧ before.length = start

lemma Stretch.append {start : ℕ} {first later : List Path}
    (h : root.Stretch start (first ++ later)) :
    root.Stretch start first ∧ root.Stretch (start + first.length) later := by
  obtain ⟨before, after, heq, rfl⟩ := h
  refine ⟨⟨before, later ++ after, ?_, rfl⟩, ⟨before ++ first, after, ?_, ?_⟩⟩
  · rw [heq]
    simp only [List.append_assoc]
  · rw [heq]
    simp only [List.append_assoc]
  · rw [List.length_append]

lemma Stretch.mem {start : ℕ} {paths : List Path} (h : root.Stretch start paths) {path : Path}
    (hmem : path ∈ paths) : path ∈ root.positions := by
  obtain ⟨before, after, heq, _⟩ := h
  rw [heq]
  simp [hmem]

lemma positions_nodup (h : (Schema.inline root).DistinctKeys) : root.positions.Nodup := by
  refine List.Nodup.append ?_ (Schema.placed_nodup h []) ?_
  · refine List.nodup_cons.mpr ⟨fun hnil => ?_, Schema.declared_nodup h []⟩
    obtain ⟨q, _, heq, _, hne, _⟩ := Schema.declared_at hnil
    exact hne heq.symm
  · intro path hpath hplaced
    obtain ⟨q, _, heq, _, hne, hdef⟩ := Schema.placed_at hplaced
    rw [List.nil_append] at heq
    subst heq
    rcases List.mem_cons.mp hpath with rfl | hdeclared
    · exact hne rfl
    · obtain ⟨_, _, rfl, _, _, hdef'⟩ := Schema.declared_at hdeclared
      rw [hdef'] at hdef
      cases hdef

lemma number_inj {p q : Path} (hp : p ∈ root.positions) (h : root.number p = root.number q) :
    p = q := (List.idxOf_inj hp).mp h

lemma Stretch.number {start : ℕ} {path : Path} (hnodup : root.positions.Nodup)
    (h : root.Stretch start [path]) : root.number path = start := by
  obtain ⟨before, after, heq, rfl⟩ := h
  have hnot : path ∉ before := by
    rw [heq, List.append_assoc, List.nodup_append'] at hnodup
    exact fun hmem => hnodup.2.2 hmem (by simp)
  rw [Keywords.number, heq, List.append_assoc, List.idxOf_append_of_notMem hnot]
  simp

end Keywords

namespace Schema

def Below (s : Schema) (path p : Path) (t : Schema) : Prop :=
  ∃ q, q ≠ [] ∧ s.At q t ∧ p = path ++ q

def AmongChildren (children : List (Place × Schema)) (path p : Path) (t : Schema) : Prop :=
  ∃ place s, (place, s) ∈ children ∧ ∃ q, s.At q t ∧ p = path ++ place :: q

lemma below_inline {k : Keywords Schema} {path p : Path} {t : Schema} :
    (inline k).Below path p t ↔ AmongChildren k.children path p t := by
  constructor
  · rintro ⟨q, hne, hat, rfl⟩
    cases hat with
    | here => exact absurd rfl hne
    | @child _ place s _ q hmem hat => exact ⟨place, s, hmem, q, hat, rfl⟩
  · rintro ⟨place, s, hmem, q, hat, rfl⟩
    exact ⟨place :: q, by simp, .child hmem hat, rfl⟩

lemma amongChildren_append {first later : List (Place × Schema)} {path p : Path} {t : Schema} :
    AmongChildren (first ++ later) path p t ↔
      AmongChildren first path p t ∨ AmongChildren later path p t := by
  constructor
  · rintro ⟨place, s, hmem, h⟩
    exact (List.mem_append.mp hmem).imp (⟨place, s, ·, h⟩) (⟨place, s, ·, h⟩)
  · rintro (⟨place, s, hmem, h⟩ | ⟨place, s, hmem, h⟩)
    · exact ⟨place, s, List.mem_append_left _ hmem, h⟩
    · exact ⟨place, s, List.mem_append_right _ hmem, h⟩

lemma amongChildren_single {place : Place} {s : Schema} {path p : Path} {t : Schema} :
    AmongChildren [(place, s)] path p t ↔
      (p = path ++ [place] ∧ t = s) ∨ s.Below (path ++ [place]) p t := by
  constructor
  · rintro ⟨place', s', hmem, q, hat, rfl⟩
    cases List.mem_singleton.mp hmem
    by_cases hq : q = []
    · subst hq
      cases hat
      exact .inl ⟨rfl, rfl⟩
    · exact .inr ⟨q, hq, hat, by simp⟩
  · rintro (⟨rfl, rfl⟩ | ⟨q, _, hat, rfl⟩)
    · exact ⟨place, t, List.mem_singleton.mpr rfl, [], .here t, rfl⟩
    · exact ⟨place, s, List.mem_singleton.mpr rfl, q, hat, by simp⟩

end Schema

namespace Lowering

/-- From the first graph to the second the schemas of an area got the nodes that represent them,
so many nodes were added, and all other nodes stayed. -/
structure Fills (root : Keywords Schema) (area : Path → Schema → Prop) (added : ℕ)
    (g g' : Graph) : Prop where
  size : g'.size = g.size + added
  position : ∀ p t, area p t → p ∈ root.positions
  inside : ∀ p t, area p t → root.number p < g'.size
  represented : ∀ p t, area p t →
    Node.Represents root p p.isProperty t (g'.node (root.number p))
  kept : ∀ id < g.size, (∀ p t, area p t → root.number p ≠ id) → g'.node id = g.node id

namespace Fills

variable {root : Keywords Schema} {area area' : Path → Schema → Prop} {added more : ℕ}
  {g g₁ g' : Graph}

lemma nothing (g : Graph) : Fills root (fun _ _ => False) 0 g g where
  size := rfl
  position _ _ h := h.elim
  inside _ _ h := h.elim
  represented _ _ h := h.elim
  kept _ _ _ := rfl

lemma congr (h : Fills root area added g g') (heq : ∀ p t, area' p t ↔ area p t) :
    Fills root area' added g g' := by
  have : area' = area := by
    funext p t
    exact propext (heq p t)
  rwa [this]

lemma trans (h : Fills root area added g g₁) (h' : Fills root area' more g₁ g')
    (hapart : ∀ p t q u, area p t → area' q u → p ≠ q) :
    Fills root (fun p t => area p t ∨ area' p t) (added + more) g g' := by
  have hnumber {p : Path} {t : Schema} (hp : area p t) :
      ∀ q u, area' q u → root.number q ≠ root.number p := by
    intro q u hq heq
    exact hapart p t q u hp hq (Keywords.number_inj (h.position p t hp) heq.symm)
  constructor
  case size => rw [h'.size, h.size, Nat.add_assoc]
  case position =>
    rintro p t (hp | hp)
    · exact h.position p t hp
    · exact h'.position p t hp
  case inside =>
    rintro p t (hp | hp)
    · exact Nat.lt_of_lt_of_le (h.inside p t hp) (by rw [h'.size]; exact Nat.le_add_right _ _)
    · exact h'.inside p t hp
  case represented =>
    rintro p t (hp | hp)
    · rw [h'.kept _ (h.inside p t hp) (hnumber hp)]
      exact h.represented p t hp
    · exact h'.represented p t hp
  case kept =>
    intro id hid hout
    rw [h'.kept id (by rw [h.size]; exact Nat.lt_add_right added hid)
      fun q u hq => hout q u (.inr hq)]
    exact h.kept id hid fun p t hp => hout p t (.inl hp)

lemma push {path : Path} {s : Schema} {node : Node} (h : Fills root area added g g')
    (hmem : path ∈ root.positions) (hnumber : root.number path = g'.size)
    (hnode : Node.Represents root path path.isProperty s node) :
    Fills root (fun p t => (p = path ∧ t = s) ∨ area p t) (added + 1) g (g'.push node) := by
  constructor
  case size => rw [Graph.size_push, h.size, Nat.add_assoc]
  case position =>
    rintro p t (⟨rfl, rfl⟩ | hp)
    · exact hmem
    · exact h.position p t hp
  case inside =>
    rintro p t (⟨rfl, rfl⟩ | hp)
    · rw [hnumber, Graph.size_push]
      exact Nat.lt_succ_self _
    · rw [Graph.size_push]
      exact Nat.lt_succ_of_lt (h.inside p t hp)
  case represented =>
    rintro p t (⟨rfl, rfl⟩ | hp)
    · rwa [hnumber, Graph.node_push_size]
    · rw [Graph.node_push_of_lt node (h.inside p t hp)]
      exact h.represented p t hp
  case kept =>
    intro id hid hout
    rw [Graph.node_push_of_lt node (by rw [h.size]; exact Nat.lt_add_right added hid)]
    exact h.kept id hid fun p t hp => hout p t (.inr hp)

lemma set {path : Path} {s : Schema} {node : Node} (h : Fills root area added g g')
    (hmem : path ∈ root.positions) (hinside : root.number path < g'.size)
    (hapart : ∀ p t, area p t → p ≠ path)
    (hnode : Node.Represents root path path.isProperty s node) :
    Fills root (fun p t => (p = path ∧ t = s) ∨ area p t) added g
      (g'.set (root.number path) node) := by
  constructor
  case size => rw [Graph.size_set, h.size]
  case position =>
    rintro p t (⟨rfl, rfl⟩ | hp)
    · exact hmem
    · exact h.position p t hp
  case inside =>
    rintro p t (⟨rfl, rfl⟩ | hp)
    · rwa [Graph.size_set]
    · rw [Graph.size_set]
      exact h.inside p t hp
  case represented =>
    rintro p t (⟨rfl, rfl⟩ | hp)
    · rwa [Graph.node_set_self node hinside]
    · have hne : root.number p ≠ root.number path := fun heq =>
        hapart p t hp (Keywords.number_inj (h.position p t hp) heq)
      rw [Graph.node_set_of_ne node hne]
      exact h.represented p t hp
  case kept =>
    intro id hid hout
    rw [Graph.node_set_of_ne node (hout path s (.inl ⟨rfl, rfl⟩)).symm]
    exact h.kept id hid fun p t hp => hout p t (.inr hp)

end Fills

def child (scope : Scope) (path : Path) (place : Place) (s : Schema) : Lowering SchemaId :=
  match place with
  | .definition _ _ => fill scope (path ++ [place]) (node scope s (path ++ [place]) false)
  | place => do add (← node scope s (path ++ [place]) place.isProperty)

lemma node_ref (scope : Scope) (target : String) (path : Path) (isProperty : Bool) :
    node scope (.ref target) path isProperty = do
      return { reference := some (← scope.resolve target), isProperty } := rfl

lemma node_inline (scope : Scope) (k : Keywords Schema) (path : Path) (isProperty : Bool) :
    node scope (.inline k) path isProperty = do
      let ids ← k.traverse (child scope path)
      let discriminator ← scope.lowerDiscriminator k.oneOf k.discriminator
      return Node.ofKeywords ids discriminator isProperty := by
  have halternatives (f : Schema → Schema × (Path → Bool → Lowering Node))
      (hf : ∀ s, (f s).1 = s) : (k.map f).oneOf.map (Option.map Prod.fst) = k.oneOf := by
    rw [Keywords.map, List.map_map]
    have hid : Option.map Prod.fst ∘ Option.map f = id := by
      funext entry
      cases entry <;> simp [hf]
    rw [hid, List.map_id]
  rw [node, Schema.fold_inline]
  simp only [Keywords.traverse_map]
  change (do
    let ids ← k.traverse (child scope path)
    let discriminator ← scope.lowerDiscriminator
      ((k.map fun s => (s, node scope s)).oneOf.map (Option.map Prod.fst)) k.discriminator
    return Node.ofKeywords ids discriminator isProperty) = _
  rw [halternatives _ fun _ => rfl]


variable {root : Keywords Schema} {scope : Scope} {path : Path} {place : Place} {s : Schema}
  {isProperty : Bool} {node : Node} {id : SchemaId} {g g' : Graph}

lemma lift_eq_ok {γ : Type} {x : Except ReferenceError γ} {c : γ}
    (h : (liftM x : Lowering γ) g = .ok (c, g')) : x = .ok c ∧ g' = g := by
  obtain ⟨c', hx, hc⟩ := Except.bind_eq_ok h
  cases hc
  exact ⟨hx, rfl⟩

lemma fill_eq_ok {lower : Lowering Node} (h : fill scope path lower g = .ok (id, g')) :
    scope.pointers.lookup (Path.text path) = some id ∧
      ∃ node g₁, lower g = .ok (node, g₁) ∧ g' = g₁.set id node := by
  cases hlookup : scope.pointers.lookup (Path.text path) with
  | none =>
    simp only [fill, hlookup] at h
    cases h
  | some id' =>
    simp only [fill, hlookup] at h
    obtain ⟨node, g₁, hlower, h⟩ := bind_eq_ok h
    obtain ⟨_, g₂, hmodify, h⟩ := bind_eq_ok h
    cases hmodify
    obtain ⟨rfl, rfl⟩ := pure_eq_ok h
    exact ⟨rfl, node, g₁, hlower, rfl⟩

lemma child_definition (h : place.isDefinition) :
    child scope path place s = fill scope (path ++ [place]) (Lowering.node scope s (path ++ [place])
      place.isProperty) := by
  cases place with
  | definition => rfl
  | _ => cases h

lemma child_other (h : place.isDefinition = false) :
    child scope path place s = (do
      add (← Lowering.node scope s (path ++ [place]) place.isProperty)) := by
  cases place with
  | definition => cases h
  | _ => rfl

/-- What lowering a schema must do at a path. -/
def Correct (root : Keywords Schema) (s : Schema) (path : Path) : Prop :=
  ∀ isProperty g node g',
    Lowering.node (Scope.ofKeywords root) s path isProperty g = .ok (node, g') →
    root.Stretch g.size (s.placed path) → ((Schema.inline root).declared []).length < g.size →
    Node.Represents root path isProperty s node ∧
      Fills root (s.Below path) (s.placed path).length g g'

lemma isProperty_concat (path : Path) (place : Place) :
    Path.isProperty (path ++ [place]) = place.isProperty := by
  simp [Path.isProperty]

lemma child_fills (hnodup : root.positions.Nodup) (hs : Correct root s (path ++ [place]))
    (h : child (Scope.ofKeywords root) path place s g = .ok (id, g'))
    (hstretch : root.Stretch g.size (s.placed (path ++ [place]) ++
      if place.isDefinition then [] else [path ++ [place]]))
    (hsize : ((Schema.inline root).declared []).length < g.size) :
    id = root.number (path ++ [place]) ∧
      Fills root (Schema.AmongChildren [(place, s)] path) (s.placed (path ++ [place]) ++
        if place.isDefinition then [] else [path ++ [place]]).length g g' := by
  obtain ⟨hbelow, hself⟩ := hstretch.append
  cases hplace : place.isDefinition with
  | true =>
    rw [child_definition hplace] at h
    obtain ⟨hlookup, node, g₁, hnode, rfl⟩ := fill_eq_ok h
    obtain ⟨hrepresents, hfills⟩ := hs _ g node g₁ hnode hbelow hsize
    obtain ⟨path', hdeclared, htext, rfl⟩ := Scope.of_lookup_pointers hlookup
    rw [Path.text_injective htext] at hdeclared ⊢
    refine ⟨rfl, ?_⟩
    have hinside : root.number (path ++ [place]) < g₁.size := by
      have hlt := List.idxOf_lt_length_of_mem hdeclared
      rw [Keywords.number, Keywords.positions, List.idxOf_append_of_mem hdeclared, hfills.size]
      exact Nat.lt_of_lt_of_le hlt (Nat.le_add_right_of_le hsize)
    have hapart : ∀ p t, s.Below (path ++ [place]) p t → p ≠ path ++ [place] := by
      rintro _ _ ⟨q, hne, _, rfl⟩ heq
      exact hne (by simpa using heq)
    rw [← isProperty_concat path place] at hrepresents
    have hset := hfills.set (List.mem_append_left _ hdeclared) hinside hapart hrepresents
    simpa using hset.congr fun p t => Schema.amongChildren_single
  | false =>
    rw [child_other hplace] at h
    obtain ⟨node, g₁, hnode, hadd⟩ := bind_eq_ok h
    cases hadd
    obtain ⟨hrepresents, hfills⟩ := hs _ g node g₁ hnode hbelow hsize
    rw [hplace] at hself
    have hmem : path ++ [place] ∈ root.positions := hself.mem (by simp)
    have hnumber : root.number (path ++ [place]) = g₁.size := by
      rw [hself.number hnodup, hfills.size]
    rw [← isProperty_concat path place] at hrepresents
    refine ⟨hnumber.symm, ?_⟩
    have hpush := hfills.push hmem hnumber hrepresents
    simpa using hpush.congr fun p t => Schema.amongChildren_single

def added (path : Path) (child : Place × Schema) : List Path :=
  child.2.placed (path ++ [child.1]) ++
    if child.1.isDefinition then [] else [path ++ [child.1]]

lemma amongChildren_apart {k : Keywords Schema} (hk : k.DistinctKeys)
    {before after : List (Place × Schema)}
    (hchildren : before ++ [(place, s)] ++ after = k.children) (p : Path) (t : Schema) (q : Path)
    (u : Schema) (hp : Schema.AmongChildren before path p t)
    (hq : Schema.AmongChildren [(place, s)] path q u) : p ≠ q := by
  have hplaces := hk.places_nodup
  rw [← hchildren, List.append_assoc, List.map_append, List.nodup_append'] at hplaces
  obtain ⟨place₁, s₁, hmem₁, q₁, _, rfl⟩ := hp
  obtain ⟨place₂, s₂, hmem₂, q₂, _, rfl⟩ := hq
  intro heq
  cases List.mem_singleton.mp hmem₂
  cases (List.cons.inj (List.append_cancel_left heq)).1
  exact hplaces.2.2 (List.mem_map_of_mem hmem₁) (by simp)

lemma child_visits (hkeys : (Schema.inline root).DistinctKeys) {k : Keywords Schema}
    (hk : k.DistinctKeys)
    (ih : ∀ place s, (place, s) ∈ k.children → ∀ path, Correct root s path)
    (hstretch : root.Stretch g.size (k.children.flatMap (added path)))
    (hsize : ((Schema.inline root).declared []).length < g.size) (place : Place) (s : Schema) :
    Visits k.children
      (fun before g' => Fills root (Schema.AmongChildren before path)
        (before.flatMap (added path)).length g g')
      (child (Scope.ofKeywords root) path place s) [(place, s)]
      (root.number (path ++ [place])) := by
  intro before g₁ id g₂ hprefix hfills hchild
  obtain ⟨after, hchildren⟩ := hprefix
  have hmem : (place, s) ∈ k.children := by simp [← hchildren]
  have hstretch' : root.Stretch g₁.size (added path (place, s)) := by
    rw [← hchildren, List.flatMap_append, List.flatMap_append, List.append_assoc] at hstretch
    have h := hstretch.append.2.append.1
    rw [List.flatMap_singleton] at h
    rw [hfills.size]
    exact h
  have hsize' : ((Schema.inline root).declared []).length < g₁.size := by
    rw [hfills.size]
    omega
  have hnodup := Keywords.positions_nodup hkeys
  obtain ⟨hid, hfills'⟩ := child_fills hnodup (ih place s hmem _) hchild hstretch' hsize'
  refine ⟨hid, ?_⟩
  have htrans := hfills.trans hfills' (amongChildren_apart hk hchildren)
  change Fills root _ ((before ++ [(place, s)]).flatMap (added path)).length g g₂
  rw [List.flatMap_append, List.length_append, List.flatMap_singleton]
  exact htrans.congr fun p t => Schema.amongChildren_append

lemma inline_correct (hkeys : (Schema.inline root).DistinctKeys) {k : Keywords Schema}
    (hk : k.DistinctKeys)
    (ih : ∀ place s, (place, s) ∈ k.children → ∀ path, Correct root s path) (path : Path) :
    Correct root (.inline k) path := by
  intro isProperty g node g' h hstretch hsize
  rw [Schema.placed_inline] at hstretch ⊢
  rw [node_inline] at h
  obtain ⟨ids, g₁, hids, h⟩ := bind_eq_ok h
  obtain ⟨d, g₂, hd, h⟩ := bind_eq_ok h
  obtain ⟨rfl, rfl⟩ := pure_eq_ok h
  obtain ⟨hlower, rfl⟩ := lift_eq_ok hd
  have hvisits := child_visits hkeys hk ih hstretch hsize
  have hnothing : Fills root (Schema.AmongChildren [] path) 0 g g :=
    (Fills.nothing g).congr fun p t => by simp [Schema.AmongChildren]
  obtain ⟨rfl, hfills⟩ := visits_traverse hvisits k [] g ids _ (List.prefix_refl _) hnothing hids
  refine ⟨⟨?_, rfl⟩, hfills.congr fun p t => Schema.below_inline⟩
  exact Node.holdsKeywords_ofKeywords _ isProperty (Scope.represents_of_lowerDiscriminator hlower)

theorem node_correct (hkeys : (Schema.inline root).DistinctKeys) (s : Schema)
    (hs : s.DistinctKeys) (path : Path) : Correct root s path := by
  induction s using Schema.induct generalizing path with
  | ref target =>
    intro isProperty g node g' h _ _
    rw [node_ref] at h
    obtain ⟨id, g₁, hid, h⟩ := bind_eq_ok h
    obtain ⟨rfl, rfl⟩ := pure_eq_ok h
    obtain ⟨hresolve, rfl⟩ := lift_eq_ok hid
    refine ⟨⟨id, Scope.points_of_resolve hresolve, rfl⟩, (Fills.nothing _).congr fun p t => ?_⟩
    refine ⟨?_, False.elim⟩
    rintro ⟨q, hne, hat, _⟩
    cases hat
    exact hne rfl
  | inline k ih =>
    exact inline_correct hkeys (hs [] k (.here _))
      (fun place s hmem => ih place s hmem (hs.child hmem)) path

end Lowering

namespace Document

open Lowering

variable {root : Keywords Schema} {d : Document}

lemma ofKeywords_ok (h : ofKeywords root = .ok d) :
    ∃ node g, Lowering.node (Scope.ofKeywords root) (.inline root) [] false
        ⟨Array.replicate (Scope.ofKeywords root).pointers.length {}⟩ = .ok (node, g) ∧
      d = { graph := g.set 0 node } := by
  obtain ⟨⟨node, g⟩, hrun, heq⟩ := Except.bind_eq_ok h
  cases heq
  exact ⟨node, g, hrun, rfl⟩

lemma pointers_length (root : Keywords Schema) :
    (Scope.ofKeywords root).pointers.length = ((Schema.inline root).declared []).length + 1 := by
  simp [Scope.ofKeywords]

lemma at_of_mem_positions {path : Path} (h : path ∈ root.positions) :
    ∃ t, (Schema.inline root).At path t := by
  rcases List.mem_append.mp h with h | h
  · rcases List.mem_cons.mp h with rfl | h
    · exact ⟨_, .here _⟩
    · obtain ⟨_, t, rfl, hat, _⟩ := Schema.declared_at h
      exact ⟨t, hat⟩
  · obtain ⟨_, t, rfl, hat, _⟩ := Schema.placed_at h
    exact ⟨t, hat⟩

def reserved (root : Keywords Schema) : Graph :=
  ⟨Array.replicate (Scope.ofKeywords root).pointers.length {}⟩

lemma reserved_size (root : Keywords Schema) :
    (reserved root).size = ((Schema.inline root).declared []).length + 1 := by
  rw [Graph.size, reserved, Array.size_replicate, pointers_length]

lemma fills_of_distinctKeys (hkeys : (Schema.inline root).DistinctKeys)
    (h : ofKeywords root = .ok d) :
    d.root = 0 ∧ Fills root (Schema.inline root).At ((Schema.inline root).placed []).length
      (reserved root) d.graph := by
  obtain ⟨node, g, hrun, rfl⟩ := ofKeywords_ok h
  have hsize := reserved_size root
  have hstretch : root.Stretch (reserved root).size ((Schema.inline root).placed []) := by
    rw [hsize]
    exact ⟨[] :: (Schema.inline root).declared [], [], (List.append_nil _).symm, rfl⟩
  obtain ⟨hroot, hfills⟩ := node_correct hkeys _ hkeys [] false _ node g hrun hstretch
    (by rw [← reserved, hsize]; exact Nat.lt_succ_self _)
  have hpositive : 0 < g.size := by
    rw [hfills.size, ← reserved, hsize]
    omega
  -- The root comes into its place last, when all schemas below have theirs.
  have hfilled := hfills.set List.mem_cons_self hpositive
    (by rintro _ _ ⟨q, hne, _, rfl⟩; exact hne) hroot
  refine ⟨rfl, hfilled.congr fun path t => ⟨fun hat => ?_, ?_⟩⟩
  · by_cases hpath : path = []
    · subst hpath
      cases hat
      exact .inl ⟨rfl, rfl⟩
    · exact .inr ⟨path, hpath, hat, rfl⟩
  · rintro (⟨rfl, rfl⟩ | ⟨q, _, hat, rfl⟩)
    · exact .here _
    · exact hat

lemma represents_of_distinctKeys (hkeys : (Schema.inline root).DistinctKeys)
    (h : ofKeywords root = .ok d) : d.Represents root := by
  obtain ⟨hroot, hfills⟩ := fills_of_distinctKeys hkeys h
  constructor
  case root_eq => exact hroot
  case number_root => rfl
  case number_lt => exact hfills.inside
  case number_inj =>
    intro path t _ _ hat _ heq
    exact Keywords.number_inj (hfills.position path t hat) heq
  case number_surj =>
    intro id hid
    have hlength : root.positions.length = d.graph.size := by
      rw [hfills.size, reserved_size, Keywords.positions, List.length_append, List.length_cons]
    have hlt : id < root.positions.length := by rwa [hlength]
    obtain ⟨t, ht⟩ := at_of_mem_positions (List.getElem_mem hlt)
    exact ⟨_, t, ht, (Keywords.positions_nodup hkeys).idxOf_getElem id hlt⟩
  case node => exact hfills.represented

end Document

end SchemaTypes
