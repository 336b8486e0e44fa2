import SchemaTypes.Proofs.Graph.Loaded
import SchemaTypes.Proofs.Session.Wrappers

/-! Hierarchies of discriminated choices. A wrapper is composed of the subtypes that its choice
declares as long as no other hierarchy has written into the discriminator of the choice before. -/

namespace SchemaTypes

/-- The subtypes that a choice maps values to in the graph, and the choice. The references are
followed as far as they are when the wrapper is made. -/
def Graph.declaredParts (g : Graph) (id wrapper : SchemaId) : List SchemaId :=
  (((g.node id).discriminator.map (·.mapping)).getD []).map
    (fun entry => g.follow (wrapper + 1) entry.2) ++ [id]

lemma Graph.Closed.declaredParts_lt {g : Graph} (hg : g.Closed) {id : SchemaId} (hid : id < g.size)
    (wrapper : SchemaId) : ∀ part ∈ g.declaredParts id wrapper, part < g.size := by
  intro part hpart
  rcases List.mem_append.mp hpart with hpart | hpart
  · obtain ⟨entry, hentry, rfl⟩ := List.mem_map.mp hpart
    cases hd : (g.node id).discriminator with
    | none => simp [hd] at hentry
    | some d =>
      simp only [hd, Option.map_some, Option.getD_some] at hentry
      exact hg.follow_lt ((hg id).discriminator d hd entry hentry) _
  · rw [List.mem_singleton.mp hpart]
    exact hid

namespace Session

variable {env : Environment} {s t : Session} {g : Graph} {id wrapper : SchemaId}

def Shared (g : Graph) (wrappers : List (SchemaId × SchemaId)) (id : SchemaId) : Prop :=
  ∃ entry ∈ wrappers, id ∈ (g.node entry.2).allOf

/-- What the wrappers are composed of, and what they did to the discriminators of the graph. -/
structure Hierarchies (g : Graph) (s : Session) : Prop where
  untouched : ∀ id, ¬ Shared s.graph s.wrappers id →
    (s.graph.node id).discriminator = (g.node id).discriminator
  touched : ∀ entry ∈ s.wrappers, ∀ id ∈ (s.graph.node entry.2).allOf, id ≠ entry.1 →
    ∃ other ∈ s.wrappers, (s.graph.node id).MapsTo other.2
  declared : ∀ before id wrapper after, s.wrappers = before ++ (id, wrapper) :: after →
    ¬ Shared s.graph before id → (s.graph.node wrapper).allOf = g.declaredParts id wrapper
  mixed : ∀ before id wrapper after, s.wrappers = before ++ (id, wrapper) :: after →
    Shared s.graph before id → ∃ other ∈ s.wrappers, other.2 ∈ (s.graph.node wrapper).allOf

lemma Hierarchies.start (g : Graph) : Hierarchies g { graph := g } :=
  ⟨fun _ _ => rfl, by simp, by simp, by simp⟩

lemma Hierarchies.congr (hs : Hierarchies g s) (hwrappers : t.wrappers = s.wrappers)
    (hallOf : ∀ id, (t.graph.node id).allOf = (s.graph.node id).allOf)
    (hdiscriminator : ∀ id, (t.graph.node id).discriminator = (s.graph.node id).discriminator) :
    Hierarchies g t := by
  obtain ⟨h₁, h₂, h₃, h₄⟩ := hs
  constructor <;> simpa only [Shared, Node.MapsTo, hwrappers, hallOf, hdiscriminator]

lemma concat_eq_append_cons {α : Type} {xs before after : List α} {x y : α}
    (h : xs ++ [x] = before ++ y :: after) :
    (before = xs ∧ y = x) ∨ ∃ rest, xs = before ++ y :: rest := by
  rcases List.eq_nil_or_concat after with rfl | ⟨rest, last, rfl⟩
  · obtain ⟨rfl, hlast⟩ := List.append_inj' h rfl
    exact .inl ⟨rfl, (List.cons.inj hlast).1.symm⟩
  · rw [List.concat_eq_append, ← List.cons_append, ← List.append_assoc] at h
    exact .inr ⟨rest, (List.append_inj' h rfl).1⟩

section

variable {d : Discriminator SchemaId} (hs : Extends g s) (hwraps : Wraps id d s t)

include hwraps

lemma Wraps.split {before after : List (SchemaId × SchemaId)} {entry : SchemaId × SchemaId}
    (h : t.wrappers = before ++ entry :: after) :
    before ⊆ s.wrappers ∧ ((before = s.wrappers ∧ entry = (id, s.graph.size)) ∨
      entry ∈ s.wrappers ∧ ∃ rest, s.wrappers = before ++ entry :: rest) := by
  rw [hwraps.wrappers] at h
  rcases concat_eq_append_cons h with ⟨rfl, heq⟩ | ⟨rest, hrest⟩
  · exact ⟨List.Subset.refl _, .inl ⟨rfl, heq⟩⟩
  · rw [hrest]
    exact ⟨List.subset_append_left _ _, .inr ⟨by simp, rest, rfl⟩⟩

include hs

lemma Wraps.allOf_kept {entry : SchemaId × SchemaId} (hentry : entry ∈ s.wrappers) :
    (t.graph.node entry.2).allOf = (s.graph.node entry.2).allOf :=
  hwraps.graph.others _ (Nat.ne_of_lt (hs.wrapper_range hentry).2)

lemma Wraps.shared_iff {wrappers : List (SchemaId × SchemaId)} (hsub : wrappers ⊆ s.wrappers)
    {other : SchemaId} : Shared t.graph wrappers other ↔ Shared s.graph wrappers other := by
  refine exists_congr fun entry => and_congr_right fun hentry => ?_
  rw [hwraps.allOf_kept hs (hsub hentry)]

lemma Wraps.shared {other : SchemaId} (hother : Shared s.graph s.wrappers other) :
    Shared t.graph t.wrappers other := by
  obtain ⟨entry, hentry, hmem⟩ := (hwraps.shared_iff hs (List.Subset.refl _)).mpr hother
  exact ⟨entry, hwraps.wrappers_subset hentry, hmem⟩

lemma Wraps.own (href : ∀ id, (g.node id).reference.isSome → (g.node id).oneOf = []) :
    (s.graph.node id).discriminator = some d := by
  -- A choice is not a reference, so the discriminator is its own.
  have hreference : (s.graph.node id).reference = none := by
    have hone := hwraps.oneOf
    rw [(hs.grows id).oneOf] at hone
    rw [(hs.grows id).reference, ← Option.not_isSome_iff_eq_none]
    exact fun hsome => hone (href id hsome)
  have hd := hwraps.discriminator
  rw [Graph.actualDiscriminator, Graph.actualNode, Graph.actual_of_reference hreference] at hd
  cases hown : (s.graph.node id).discriminator with
  | none => simp [hown] at hd
  | some d' => simpa [hown] using hd

variable (h : Hierarchies g s)

include h

lemma Wraps.untouched {other : SchemaId} (hother : ¬ Shared t.graph t.wrappers other) :
    (t.graph.node other).discriminator = (g.node other).discriminator := by
  have hpart : other ∉ d.mapping.map fun entry => s.graph.follow (s.graph.size + 1) entry.2 := by
    refine fun hpart => hother ⟨_, hwraps.new_mem, ?_⟩
    rw [hwraps.graph.composed]
    exact List.mem_append_left _ hpart
  rw [hwraps.graph.untouched other hpart]
  exact h.untouched other (mt (hwraps.shared hs) hother)

lemma Wraps.touched_before {entry : SchemaId × SchemaId} (hentry : entry ∈ s.wrappers)
    {other : SchemaId} (hother : other ∈ (s.graph.node entry.2).allOf) (hne : other ≠ entry.1) :
    ∃ maker ∈ t.wrappers, (t.graph.node other).MapsTo maker.2 := by
  obtain ⟨maker, hmaker, hmaps⟩ := h.touched entry hentry other hother hne
  by_cases hpart : other ∈ d.mapping.map fun entry => s.graph.follow (s.graph.size + 1) entry.2
  · have hlt := (hs.closed entry.2).allOf other hother
    exact ⟨_, hwraps.new_mem, hwraps.graph.touched other hpart (Nat.le_of_lt hlt)⟩
  · refine ⟨maker, hwraps.wrappers_subset hmaker, ?_⟩
    rwa [Node.MapsTo, hwraps.graph.untouched other hpart]

omit h in
lemma Wraps.touched_new {other : SchemaId}
    (hother : other ∈ (t.graph.node s.graph.size).allOf) (hne : other ≠ id) :
    (t.graph.node other).MapsTo s.graph.size := by
  have hlt := ((hwraps.extends hs).closed _).allOf other hother
  rw [hwraps.graph.size] at hlt
  rw [hwraps.graph.composed] at hother
  have hpart := (List.mem_append.mp hother).resolve_right fun h => hne (List.mem_singleton.mp h)
  exact hwraps.graph.touched other hpart (Nat.le_of_lt_succ hlt)

variable (hown : (s.graph.node id).discriminator = some d)

include hown

lemma Wraps.declared_new (hshared : ¬ Shared s.graph s.wrappers id) :
    (t.graph.node s.graph.size).allOf = g.declaredParts id s.graph.size := by
  rw [hwraps.graph.composed, Graph.declaredParts, ← h.untouched id hshared, hown]
  simp only [hs.grows.follow, Option.map_some, Option.getD_some]

omit hs in
/-- The wrapper of an earlier hierarchy is what a value of the choice leads to, and it stands
among the new parts. -/
lemma Wraps.mixed_new (hplain : s.PlainWrappers) (hshared : Shared s.graph s.wrappers id) :
    ∃ other ∈ t.wrappers, other.2 ∈ (t.graph.node s.graph.size).allOf := by
  obtain ⟨entry, hentry, hmem⟩ := hshared
  have hfresh := wrapper?_eq_none.mp hwraps.fresh
  have hne : id ≠ entry.1 := fun heq => hfresh (heq ▸ List.mem_map_of_mem hentry)
  obtain ⟨other, hother, d', hd', mapped, hmapped, heq⟩ := h.touched entry hentry id hmem hne
  rw [hown, Option.mem_some_iff] at hd'
  subst hd'
  refine ⟨other, hwraps.wrappers_subset hother, ?_⟩
  rw [hwraps.graph.composed]
  refine List.mem_append_left _ (List.mem_map.mpr ⟨mapped, hmapped, ?_⟩)
  rw [heq, Graph.follow, (hplain other hother).1]

end

lemma Wraps.hierarchies {d : Discriminator SchemaId} (hwraps : Wraps id d s t)
    (hs : Extends g s) (hplain : s.PlainWrappers)
    (href : ∀ id, (g.node id).reference.isSome → (g.node id).oneOf = [])
    (h : Hierarchies g s) : Hierarchies g t := by
  have hown := hwraps.own hs href
  constructor
  case untouched => exact fun other hother => hwraps.untouched hs h hother
  case touched =>
    intro entry hentry other hother hne
    rcases hwraps.mem_or_new hentry with hentry | rfl
    · rw [hwraps.allOf_kept hs hentry] at hother
      exact hwraps.touched_before hs h hentry hother hne
    · exact ⟨_, hwraps.new_mem, hwraps.touched_new hs hother hne⟩
  case declared =>
    intro before id' wrapper' after hsplit hother
    obtain ⟨hbefore, ⟨rfl, heq⟩ | ⟨hmem, rest, hrest⟩⟩ := hwraps.split hsplit
    all_goals rw [hwraps.shared_iff hs hbefore] at hother
    · cases heq
      exact hwraps.declared_new hs h hown hother
    · rw [hwraps.allOf_kept hs hmem]
      exact h.declared before id' wrapper' rest hrest hother
  case mixed =>
    intro before id' wrapper' after hsplit hother
    obtain ⟨hbefore, ⟨rfl, heq⟩ | ⟨hmem, rest, hrest⟩⟩ := hwraps.split hsplit
    all_goals rw [hwraps.shared_iff hs hbefore] at hother
    · cases heq
      exact hwraps.mixed_new h hown hplain hother
    · obtain ⟨other, hother, hpart⟩ := h.mixed before id' wrapper' rest hrest hother
      refine ⟨other, hwraps.wrappers_subset hother, ?_⟩
      rwa [hwraps.allOf_kept hs hmem]

lemma Step.hierarchies (hstep : Step env s t) (hs : Extends g s) (hplain : s.PlainWrappers)
    (href : ∀ id, (g.node id).reference.isSome → (g.node id).oneOf = [])
    (h : Hierarchies g s) : Hierarchies g t := by
  rcases hstep.graph_cases with ⟨hwrappers, hgraph | ⟨id, hgraph⟩⟩ | ⟨id, d, hwraps⟩
  · exact h.congr hwrappers (by simp [hgraph]) (by simp [hgraph])
  · refine h.congr hwrappers ?_ ?_
    · rw [hgraph]
      exact Graph.expandAlternatives_keeps _ Node.allOf (fun _ _ => rfl) id
    · rw [hgraph]
      exact Graph.expandAlternatives_keeps _ Node.discriminator (fun _ _ => rfl) id
  · exact hwraps.hierarchies hs hplain href h

lemma Run.hierarchies (hrun : Run env { graph := g } s) (hg : g.Closed)
    (href : ∀ id, (g.node id).reference.isSome → (g.node id).oneOf = []) :
    Extends g s ∧ s.PlainWrappers ∧ Hierarchies g s := by
  have hstep {s t : Session} (h : Step env s t)
      (hs : Extends g s ∧ s.PlainWrappers ∧ Hierarchies g s) :
      Extends g t ∧ t.PlainWrappers ∧ Hierarchies g t := by
    obtain ⟨hextends, hplain, hhierarchies⟩ := hs
    exact ⟨h.extends hextends, h.plainWrappers hplain,
      h.hierarchies hextends hplain href hhierarchies⟩
  exact hrun.keeps hstep ⟨.start hg, .start g, .start g⟩

lemma Extends.shared_before (hs : Extends g s) {before after : List (SchemaId × SchemaId)}
    (hsplit : s.wrappers = before ++ (id, wrapper) :: after) {part : SchemaId} :
    Shared s.graph before part ↔ ∃ other earlier, s.wrapper? other = some earlier ∧
      earlier < wrapper ∧ part ∈ (s.graph.node earlier).allOf := by
  have hsorted : (s.wrappers.map (·.2)).Pairwise (· < ·) := by
    rw [hs.numbers]
    exact List.pairwise_lt_range'
  rw [List.pairwise_map, hsplit, List.pairwise_append, List.pairwise_cons] at hsorted
  obtain ⟨_, ⟨hafter, _⟩, hbefore⟩ := hsorted
  constructor
  · rintro ⟨⟨other, earlier⟩, hmem, hpart⟩
    refine ⟨other, earlier, hs.wrapper?_eq_some.mpr ?_, ?_, hpart⟩
    · rw [hsplit]
      exact List.mem_append_left _ hmem
    · exact hbefore _ hmem _ List.mem_cons_self
  · rintro ⟨other, earlier, hsome, hlt, hpart⟩
    have hmem := hs.wrapper?_eq_some.mp hsome
    rw [hsplit] at hmem
    rcases List.mem_append.mp hmem with hmem | hmem
    · exact ⟨_, hmem, hpart⟩
    · rcases List.mem_cons.mp hmem with heq | hmem
      · cases heq
        exact absurd hlt (Nat.lt_irrefl _)
      · exact absurd hlt (Nat.lt_asymm (hafter _ hmem))

end Session

namespace Document

open Session

variable {text : String} {d : Document} {env : Environment} {s : Session}

/-- A wrapper has the parts that its choice declares, and none of the parts is a wrapper, exactly
if the choice is no part of an earlier wrapper. It has a discriminator exactly if it is a part of a
wrapper itself, which takes a choice among the subtypes of another choice. -/
theorem wrapper_parts_iff (hload : ofJson text = .ok d ∨ ofYaml text = .ok d)
    (hrun : Run env { graph := d.graph } s) {id wrapper : SchemaId}
    (hwrapper : s.wrapper? id = some wrapper) :
    ((s.graph.node wrapper).allOf = d.graph.declaredParts id wrapper ↔
        ∀ other earlier, s.wrapper? other = some earlier → earlier < wrapper →
          id ∉ (s.graph.node earlier).allOf) ∧
      ((∀ other member, s.wrapper? other = some member → member ∉ (s.graph.node wrapper).allOf) ↔
        ∀ other earlier, s.wrapper? other = some earlier → earlier < wrapper →
          id ∉ (s.graph.node earlier).allOf) ∧
      ((s.graph.node wrapper).discriminator = none ↔
        ∀ other owner, s.wrapper? other = some owner →
          wrapper ∉ (s.graph.node owner).allOf) := by
  obtain ⟨root, hrepresents⟩ := represents_of_load hload
  have hclosed := hrepresents.closed
  obtain ⟨hs, hplain, h⟩ := hrun.hierarchies hclosed (oneOf_of_reference hload)
  have hmem := hs.wrapper?_eq_some.mp hwrapper
  obtain ⟨before, after, hsplit⟩ := List.append_of_mem hmem
  have hbase : id < d.graph.size := hs.base_lt hmem
  have hrange := hs.wrapper_range hmem
  have hearlier : (∀ other earlier, s.wrapper? other = some earlier → earlier < wrapper →
      id ∉ (s.graph.node earlier).allOf) ↔ ¬ Shared s.graph before id := by
    rw [hs.shared_before hsplit]
    simp only [not_exists, not_and]
  rw [hearlier]
  have hdeclared := h.declared before id wrapper after hsplit
  have hmixed : Shared s.graph before id →
      ∃ other member, s.wrapper? other = some member ∧ member ∈ (s.graph.node wrapper).allOf := by
    intro hpart
    obtain ⟨other, hother, hmember⟩ := h.mixed before id wrapper after hsplit hpart
    exact ⟨other.1, other.2, hs.wrapper?_eq_some.mpr hother, hmember⟩
  have hnone : (s.graph.node wrapper).allOf = d.graph.declaredParts id wrapper →
      ∀ other member, s.wrapper? other = some member →
        member ∉ (s.graph.node wrapper).allOf := by
    intro heq other member hsome hmember
    rw [heq] at hmember
    have hlt := hclosed.declaredParts_lt hbase wrapper member hmember
    have hge := (hs.wrapper_range (hs.wrapper?_eq_some.mp hsome)).1
    exact Nat.not_lt.mpr hge hlt
  refine ⟨⟨fun heq hpart => ?_, hdeclared⟩, ⟨fun hno hpart => ?_, fun h => hnone (hdeclared h)⟩,
    fun hdiscriminator other owner hsome hpart => ?_, fun hno => ?_⟩
  · obtain ⟨other, member, hsome, hmember⟩ := hmixed hpart
    exact hnone heq other member hsome hmember
  · obtain ⟨other, member, hsome, hmember⟩ := hmixed hpart
    exact hno other member hsome hmember
  · have howner := hs.wrapper?_eq_some.mp hsome
    have hne : wrapper ≠ other := fun heq => by
      have hlt := hs.base_lt howner
      rw [← heq] at hlt
      exact Nat.not_lt.mpr hrange.1 hlt
    obtain ⟨_, _, d', hd', _⟩ := h.touched _ howner wrapper hpart hne
    rw [hdiscriminator] at hd'
    cases hd'
  · have huntouched := h.untouched wrapper fun ⟨entry, hentry, hpart⟩ =>
      hno entry.1 entry.2 (hs.wrapper?_eq_some.mpr hentry) hpart
    rw [huntouched, Graph.node_of_size_le hrange.1]

/-- A pet is an animal, and a cat is a pet. -/
def animalText : String :=
  "\x7b\"$defs\":\x7b\"Animal\":\x7b\"discriminator\":\x7b\"propertyName\":\"kind\"\x7d," ++
    "\"oneOf\":[\x7b\"$ref\":\"#/$defs/Pet\"\x7d]\x7d,\"Pet\":\x7b\"discriminator\":" ++
    "\x7b\"propertyName\":\"sort\"\x7d,\"oneOf\":[\x7b\"$ref\":\"#/$defs/Cat\"\x7d]\x7d," ++
    "\"Cat\":\x7b\x7d\x7d\x7d"

def animalSession (d : Document) : Except Failure Unit × Session :=
  SessionM.register d.definitions (.ofSettings {}) { graph := d.graph }

lemma animal_registers :
    ∃ d, ofJson animalText = .ok d ∧ (animalSession d).1 = .ok () ∧
      (animalSession d).2.wrapper? 1 = some 6 ∧ (animalSession d).2.wrapper? 2 = some 7 ∧
      d.graph.declaredParts 2 7 = [3, 2] ∧
      ((animalSession d).2.graph.node 7).allOf = [3, 6, 2] ∧
      ((animalSession d).2.graph.node 6).discriminator ≠ none := by
  decide +kernel

theorem animal_parts_iff :
    ∃ d s, ofJson animalText = .ok d ∧ Run (.ofSettings {}) { graph := d.graph } s ∧
      s.wrapper? 2 = some 7 ∧
      ((s.graph.node 7).allOf = d.graph.declaredParts 2 7 ↔
          ∀ other earlier, s.wrapper? other = some earlier → earlier < 7 →
            2 ∉ (s.graph.node earlier).allOf) ∧
        ((∀ other member, s.wrapper? other = some member → member ∉ (s.graph.node 7).allOf) ↔
          ∀ other earlier, s.wrapper? other = some earlier → earlier < 7 →
            2 ∉ (s.graph.node earlier).allOf) ∧
        ((s.graph.node 7).discriminator = none ↔
          ∀ other owner, s.wrapper? other = some owner → 7 ∉ (s.graph.node owner).allOf) := by
  obtain ⟨d, hload, _, _, hwrapper, _⟩ := animal_registers
  have hrun : Run (.ofSettings {}) { graph := d.graph } (animalSession d).2 :=
    (SessionM.register_leads d.definitions).1
  exact ⟨d, _, hload, hrun, hwrapper, wrapper_parts_iff (.inl hload) hrun hwrapper⟩

/-- The wrapper of the pet has the wrapper of the animal among its parts, and that one has got a
discriminator. -/
theorem animal_mixed :
    ∃ d s, ofJson animalText = .ok d ∧
      SessionM.register d.definitions (.ofSettings {}) { graph := d.graph } = (.ok (), s) ∧
      s.wrapper? 1 = some 6 ∧ s.wrapper? 2 = some 7 ∧
      (s.graph.node 7).allOf ≠ d.graph.declaredParts 2 7 ∧ 6 ∈ (s.graph.node 7).allOf ∧
      (s.graph.node 6).discriminator ≠ none := by
  obtain ⟨d, hload, hregisters, hanimal, hpet, hdeclared, hparts, hdiscriminator⟩ :=
    animal_registers
  refine ⟨d, _, hload, Prod.ext hregisters rfl, hanimal, hpet, ?_, ?_, hdiscriminator⟩
  · rw [hdeclared]
    change ((animalSession d).2.graph.node 7).allOf ≠ [3, 2]
    rw [hparts]
    decide
  · change 6 ∈ ((animalSession d).2.graph.node 7).allOf
    rw [hparts]
    decide

end Document

end SchemaTypes
