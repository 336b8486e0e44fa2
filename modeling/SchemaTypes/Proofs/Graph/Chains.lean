import SchemaTypes.Proofs.Graph.Following
import Mathlib.Logic.Relation

/-! Chains of references. As many steps as there are schemas come to the end of a chain that has
one, and the end stays where it is when schemas are added. On a chain without an end they come to
its cycle. -/

namespace SchemaTypes.Graph

variable {g : Graph} {id target other last : SchemaId}

/-- The first schema is a reference to the second one. -/
def Refers (g : Graph) (id target : SchemaId) : Prop := (g.node id).reference = some target

/-- The second schema is on the chain of references from the first one. -/
def Leads (g : Graph) : SchemaId → SchemaId → Prop := Relation.ReflTransGen g.Refers

def EndsAt (g : Graph) (id last : SchemaId) : Prop :=
  g.Leads id last ∧ (g.node last).reference = none

/-- The references of the graph name schemas of it. -/
def ReferencesInside (g : Graph) : Prop :=
  ∀ id < g.size, ∀ target ∈ (g.node id).reference, target < g.size

instance (g : Graph) : Decidable g.ReferencesInside :=
  inferInstanceAs (Decidable (∀ id < g.size, ∀ target ∈ (g.node id).reference, target < g.size))

lemma Refers.follow (h : g.Refers id target) (steps : ℕ) :
    g.follow (steps + 1) id = g.follow steps target := by
  rw [Graph.follow, show (g.node id).reference = some target from h]

lemma leads_follow (g : Graph) (steps : ℕ) (id : SchemaId) : g.Leads id (g.follow steps id) := by
  induction steps generalizing id with
  | zero => exact .refl
  | succ steps ih =>
    cases href : (g.node id).reference with
    | none =>
      rw [follow_of_reference href]
      exact .refl
    | some target =>
      rw [Refers.follow href]
      exact .head href (ih target)

lemma leads_iff : g.Leads id target ↔ ∃ steps, g.follow steps id = target := by
  constructor
  · intro h
    induction h with
    | refl => exact ⟨0, rfl⟩
    | tail _ href ih =>
      obtain ⟨steps, rfl⟩ := ih
      exact ⟨steps + 1, by rw [follow_add, Refers.follow href, Graph.follow]⟩
  · rintro ⟨steps, rfl⟩
    exact g.leads_follow steps id

lemma follow_comm (g : Graph) (m n : ℕ) (id : SchemaId) :
    g.follow m (g.follow n id) = g.follow n (g.follow m id) := by
  rw [← follow_add, ← follow_add, Nat.add_comm]

lemma EndsAt.of_leads (h : g.EndsAt id last) (hlead : g.Leads id other) : g.EndsAt other last := by
  obtain ⟨hlast, hend⟩ := h
  obtain ⟨m, rfl⟩ := leads_iff.mp hlast
  obtain ⟨n, rfl⟩ := leads_iff.mp hlead
  refine ⟨leads_iff.mpr ⟨m, ?_⟩, hend⟩
  rw [follow_comm, follow_of_reference hend]

lemma EndsAt.actual (h : g.EndsAt id last) : g.actual id = last := by
  obtain ⟨hlast, hend⟩ := h
  obtain ⟨steps, rfl⟩ := leads_iff.mp hlast
  exact actual_of_follow hend

lemma exists_endsAt_iff :
    (∃ last, g.EndsAt id last) ↔ (g.node (g.actual id)).reference = none := by
  constructor
  · rintro ⟨last, h⟩
    rw [h.actual]
    exact h.2
  · intro hend
    exact ⟨_, g.leads_follow g.size id, hend⟩

lemma ReferencesInside.lt_of_leads (h : g.ReferencesInside) (hid : id < g.size)
    (hlead : g.Leads id other) : other < g.size := by
  induction hlead with
  | refl => exact hid
  | tail _ href hlt => exact h _ hlt _ href

def pushAll (g : Graph) (added : List Node) : Graph := added.foldl push g

lemma node_pushAll_of_lt (added : List Node) (h : id < g.size) :
    (g.pushAll added).node id = g.node id := by
  induction added generalizing g with
  | nil => rfl
  | cons node added ih =>
    have hlt : id < (g.push node).size := by
      rw [size_push]
      exact Nat.lt_succ_of_lt h
    exact (ih hlt).trans (node_push_of_lt node h)

lemma EndsAt.pushAll (h : g.EndsAt id last) (hinside : g.ReferencesInside) (hid : id < g.size)
    (added : List Node) : (g.pushAll added).EndsAt id last := by
  obtain ⟨hlead, hend⟩ := h
  constructor
  · -- No schema on the chain is one of those added.
    induction hlead using Relation.ReflTransGen.head_induction_on with
    | refl => exact .refl
    | head href _ ih =>
      refine .head ?_ (ih (hinside _ hid _ href))
      rw [Refers, node_pushAll_of_lt added hid]
      exact href
  · rw [node_pushAll_of_lt added (hinside.lt_of_leads hid hlead)]
    exact hend

/-- Schemas that refer to the same one lead to the same one, also on a cycle. -/
lemma Refers.actual_eq (h : g.Refers id target) (h' : g.Refers other target) :
    g.actual id = g.actual other := by
  cases hsize : g.size with
  | zero =>
    rw [Refers, node_of_size_le (by omega)] at h
    cases h
  | succ steps => rw [actual, actual, hsize, h.follow, h'.follow]

lemma transGen_follow (hgoes : ¬ ∃ last, g.EndsAt id last) {steps : ℕ} (hpos : 0 < steps) :
    Relation.TransGen g.Refers id (g.follow steps id) := by
  obtain ⟨steps, rfl⟩ := Nat.exists_eq_add_one_of_ne_zero (Nat.ne_of_gt hpos)
  cases href : (g.node id).reference with
  | none => exact absurd ⟨id, .refl, href⟩ hgoes
  | some target =>
    rw [Refers.follow href]
    exact .head' href (g.leads_follow steps target)

lemma actual_on_cycle (hgoes : ¬ ∃ last, g.EndsAt id last) :
    Relation.TransGen g.Refers (g.actual id) (g.actual id) := by
  obtain ⟨period, hpos, hrecurs⟩ := follow_recurs id (Nat.le_refl g.size)
  have hcycle : g.follow period (g.actual id) = g.actual id := by
    rw [actual, ← follow_add]
    exact hrecurs
  have hgoes' : ¬ ∃ last, g.EndsAt (g.actual id) last := by
    rintro ⟨last, hlead, hend⟩
    exact hgoes ⟨last, (g.leads_follow g.size id).trans hlead, hend⟩
  have hround := transGen_follow hgoes' hpos
  rwa [hcycle] at hround

lemma leads_actual (hlead : g.Leads id other) : g.Leads other (g.actual id) := by
  obtain ⟨m, rfl⟩ := leads_iff.mp hlead
  obtain ⟨late, _, hm, hsame⟩ := exists_follow_late id (Nat.le_refl g.size) m
  refine leads_iff.mpr ⟨late - m, ?_⟩
  rw [← follow_add, Nat.add_sub_cancel' hm, hsame, actual]

/-- References are followed to the end of their chain. The end is the same for all schemas on the
chain, and it stays the same when schemas are added. A chain without an end is followed to a schema
of its cycle. -/
theorem chains_followed (hinside : g.ReferencesInside) (hid : id < g.size) :
    (∀ other, g.Leads id other → other < g.size) ∧
      (∀ last, g.EndsAt id last →
        g.actual id = last ∧
          (∀ other, g.Leads id other → g.actual other = last) ∧
          ∀ added, (g.pushAll added).actual id = last) ∧
      ((¬ ∃ last, g.EndsAt id last) →
        g.Leads id (g.actual id) ∧
          Relation.TransGen g.Refers (g.actual id) (g.actual id) ∧
          ∀ other, g.Leads id other → g.Leads other (g.actual id)) ∧
      ∀ a b target, g.Refers a target → g.Refers b target → g.actual a = g.actual b := by
  refine ⟨fun _ => hinside.lt_of_leads hid, ?_, ?_, fun _ _ _ ha hb => ha.actual_eq hb⟩
  · intro last h
    exact ⟨h.actual, fun _ hlead => (h.of_leads hlead).actual,
      fun added => (h.pushAll hinside hid added).actual⟩
  · intro hgoes
    exact ⟨g.leads_follow g.size id, actual_on_cycle hgoes, fun _ => leads_actual⟩

/-- Two references lead to schema 0, and one leads into a cycle of two. -/
def linked : Graph :=
  ⟨#[{}, { reference := some 0 }, { reference := some 1 }, { reference := some 4 },
    { reference := some 3 }, { reference := some 3 }]⟩

theorem linked_followed :
    linked.ReferencesInside ∧ 2 < linked.size ∧ 5 < linked.size ∧
      linked.actual 2 = 0 ∧ (linked.pushAll [{}, { reference := some 7 }]).actual 2 = 0 ∧
      Relation.TransGen linked.Refers (linked.actual 5) (linked.actual 5) ∧
      linked.actual 4 = linked.actual 5 := by
  have hinside : linked.ReferencesInside := by decide
  have htwo : 2 < linked.size := by decide
  have hfive : 5 < linked.size := by decide
  obtain ⟨_, hends, _⟩ := chains_followed hinside htwo
  obtain ⟨_, _, hcycles, hshared⟩ := chains_followed hinside hfive
  have hend : linked.EndsAt 2 0 := ⟨leads_iff.mpr ⟨2, rfl⟩, rfl⟩
  have hgoes : ¬ ∃ last, linked.EndsAt 5 last := by
    rw [exists_endsAt_iff]
    decide
  exact ⟨hinside, htwo, hfive, (hends 0 hend).1, (hends 0 hend).2.2 _, (hcycles hgoes).2.1,
    hshared 4 5 3 rfl rfl⟩

end SchemaTypes.Graph
