import SchemaTypes.Proofs.Graph.Wrapping
import Mathlib.Data.Nat.Find

/-! Following references. References that come to an end do so within as many steps as there are
schemas, and then the end is the same however much the graph grows. -/

namespace SchemaTypes.Graph

variable {g g' : Graph} {id : SchemaId} {m n : ℕ}

lemma follow_of_reference (h : (g.node id).reference = none) (steps : ℕ) :
    g.follow steps id = id := by
  cases steps with
  | zero => rfl
  | succ steps => rw [follow, h]

lemma follow_add (g : Graph) (m n : ℕ) (id : SchemaId) :
    g.follow (m + n) id = g.follow n (g.follow m id) := by
  induction m generalizing id with
  | zero => rw [Nat.zero_add, follow]
  | succ m ih =>
    rw [Nat.succ_add, follow, follow]
    cases href : (g.node id).reference with
    | none => exact (follow_of_reference href n).symm
    | some target => exact ih target

lemma follow_of_le (h : (g.node (g.follow m id)).reference = none) (hle : m ≤ n) :
    g.follow n id = g.follow m id := by
  obtain ⟨k, rfl⟩ := Nat.exists_eq_add_of_le hle
  rw [follow_add, follow_of_reference h]

/-- References that do not end yet and lead to different schemas are at most as many as these. -/
lemma le_size_of_apart (hapart : ∀ i j, i < j → j < n → g.follow i id ≠ g.follow j id)
    (hgoes : ∀ i < n, (g.node (g.follow i id)).reference ≠ none) : n ≤ g.size := by
  have hnodup : ((List.range n).map fun i => g.follow i id).Nodup := by
    refine List.Nodup.map_on (fun i hi j hj heq => ?_) List.nodup_range
    rcases Nat.lt_trichotomy i j with hlt | rfl | hlt
    · exact absurd heq (hapart i j hlt (List.mem_range.mp hj))
    · rfl
    · exact absurd heq.symm (hapart j i hlt (List.mem_range.mp hi))
  have hrange : ∀ other ∈ (List.range n).map fun i => g.follow i id, other < g.size := by
    intro other hother
    obtain ⟨i, hi, rfl⟩ := List.mem_map.mp hother
    exact lt_size_of_ne Node.reference (hgoes i (List.mem_range.mp hi))
  have hle := length_le_of_lt hnodup hrange
  rwa [List.length_map, List.length_range] at hle

lemma actual_of_follow (h : (g.node (g.follow n id)).reference = none) :
    g.actual id = g.follow n id := by
  classical
  have hex : ∃ k, (g.node (g.follow k id)).reference = none := ⟨n, h⟩
  have hend := Nat.find_spec hex
  have hmin : ∀ i < Nat.find hex, (g.node (g.follow i id)).reference ≠ none := fun i hi =>
    Nat.find_min hex hi
  -- If a schema came again before the end, the end would come sooner.
  have happart : ∀ i j, i < j → j < Nat.find hex → g.follow i id ≠ g.follow j id := by
    intro i j hij hj heq
    have hsooner : g.follow (i + (Nat.find hex - j)) id = g.follow (Nat.find hex) id := by
      rw [follow_add, heq, ← follow_add, Nat.add_sub_cancel' (Nat.le_of_lt hj)]
    refine hmin (i + (Nat.find hex - j)) (by omega) ?_
    rw [hsooner]
    exact hend
  have hle := le_size_of_apart happart hmin
  rw [actual, follow_of_le hend hle, follow_of_le hend (Nat.find_min' hex h)]

lemma Grows.actual_of_end (h : g.Grows g') (hend : (g'.node (g'.actual id)).reference = none) :
    g.actual id = g'.actual id := by
  have hfollow : g.follow g'.size id = g'.actual id := (h.follow g'.size id).symm
  rw [← hfollow]
  apply actual_of_follow
  rw [hfollow, ← (h _).reference]
  exact hend

lemma actual_actual_reference (h : (g.node (g.actual id)).reference ≠ none) :
    (g.node (g.actual (g.actual id))).reference ≠ none := by
  intro hend
  have hfollow : g.follow (g.size + g.size) id = g.actual (g.actual id) := follow_add g _ _ _
  have hend' : (g.node (g.follow (g.size + g.size) id)).reference = none := by
    rw [hfollow]
    exact hend
  rw [actual_of_follow hend'] at h
  exact h hend'

/-- After as many steps as there are schemas one is at the end or on a cycle. -/
lemma follow_recurs (id : SchemaId) (h : g.size ≤ n) :
    ∃ period, 0 < period ∧ g.follow (n + period) id = g.follow n id := by
  by_cases hend : ∃ k, (g.node (g.follow k id)).reference = none
  case pos =>
    obtain ⟨k, hk⟩ := hend
    have hsize : (g.node (g.follow g.size id)).reference = none := by
      rw [show g.follow g.size id = g.follow k id from actual_of_follow hk]
      exact hk
    exact ⟨1, Nat.one_pos, by rw [follow_of_le hsize (Nat.le_succ_of_le h), follow_of_le hsize h]⟩
  case neg =>
    push Not at hend
    have hagain : ∃ i j, i < j ∧ j ≤ g.size ∧ g.follow i id = g.follow j id := by
      by_contra hapart
      push Not at hapart
      have hle : g.size + 1 ≤ g.size :=
        le_size_of_apart (fun i j hij hj => hapart i j hij (Nat.le_of_lt_succ hj)) fun i _ => hend i
      omega
    obtain ⟨i, j, hij, hj, hsame⟩ := hagain
    refine ⟨j - i, by omega, ?_⟩
    rw [show n + (j - i) = j + (n - i) by omega, follow_add, ← hsame, ← follow_add,
      Nat.add_sub_cancel' (by omega)]

lemma exists_follow_late (id : SchemaId) (h : g.size ≤ n) (m : ℕ) :
    ∃ k, n ≤ k ∧ m ≤ k ∧ g.follow k id = g.follow n id := by
  induction m with
  | zero => exact ⟨n, Nat.le_refl n, Nat.zero_le n, rfl⟩
  | succ m ih =>
    obtain ⟨k, hn, hm, hsame⟩ := ih
    obtain ⟨period, hpos, hrecurs⟩ := follow_recurs id (Nat.le_trans h hn)
    exact ⟨k + period, by omega, by omega, hrecurs.trans hsame⟩

/-- The references from the schema lead to the other one: it is their end, or one of the cycle that
they run into. -/
def RefersTo (g : Graph) (id target : SchemaId) : Prop :=
  ∃ steps, g.size ≤ steps ∧ g.follow steps id = target

lemma RefersTo.of_shared {other target target' : SchemaId} (h : g.RefersTo id target)
    (hother : g.RefersTo other target) (hother' : g.RefersTo other target') :
    g.RefersTo id target' := by
  obtain ⟨i, hi, rfl⟩ := h
  obtain ⟨j, _, hsame⟩ := hother
  obtain ⟨k, hk, rfl⟩ := hother'
  obtain ⟨late, _, hj, hlate⟩ := exists_follow_late other hk j
  refine ⟨i + (late - j), by omega, ?_⟩
  rw [follow_add, ← hsame, ← follow_add, Nat.add_sub_cancel' hj, hlate]

lemma Grows.refersTo_actual (h : g.Grows g') (hsize : g.size ≤ g'.size) (id : SchemaId) :
    g.RefersTo id (g'.actual id) := ⟨g'.size, hsize, (h.follow g'.size id).symm⟩

end SchemaTypes.Graph
