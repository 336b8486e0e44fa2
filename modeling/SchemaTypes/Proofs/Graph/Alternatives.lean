import SchemaTypes.Proofs.Graph.Growth
import SchemaTypes.Proofs.Graph.Loaded
import Mathlib.Data.Finset.Card
import Mathlib.Logic.Relation

/-! The alternatives of a loaded schema stand below it in the document, so that no chain of
alternatives comes back to where it was. What looks into alternatives only looks so deep. -/

namespace SchemaTypes

namespace Graph

def Splits (g : Graph) (id alternative : SchemaId) : Prop :=
  some alternative ∈ (g.node id).oneOf ∨ alternative ∈ (g.node id).anyOf

/-- A number for each schema, smaller than the size of the graph, that alternatives lower. -/
structure Ranked (g : Graph) (rank : SchemaId → ℕ) : Prop where
  rank_lt : ∀ id, rank id < g.size
  splits : ∀ id alternative, g.Splits id alternative → rank alternative < rank id

variable {g g' : Graph} {rank : SchemaId → ℕ} {id alternative : SchemaId}

lemma mem_alternatives : alternative ∈ (g.node id).alternatives ↔
    some alternative ∈ (g.node id).oneOf := by
  simp [Node.alternatives]

lemma Closed.splits_lt (hg : g.Closed) (h : g.Splits id alternative) : alternative < g.size :=
  h.elim ((hg id).oneOf alternative) ((hg id).anyOf alternative)

/-- Where a depth grows along alternatives, the number of schemas that are reached by them is a
rank. -/
lemma exists_ranked (depth : SchemaId → ℕ) (hg : g.Closed) (hsize : 0 < g.size)
    (hdepth : ∀ id alternative, g.Splits id alternative → depth id < depth alternative) :
    ∃ rank, g.Ranked rank := by
  classical
  have hreach : ∀ id other, Relation.TransGen g.Splits id other → depth id < depth other := by
    intro id other h
    induction h with
    | single h => exact hdepth _ _ h
    | tail _ h ih => exact ih.trans (hdepth _ _ h)
  have hself : ∀ id, ¬ Relation.TransGen g.Splits id id := fun id h =>
    Nat.lt_irrefl _ (hreach id id h)
  let below (id : SchemaId) : Finset SchemaId :=
    (Finset.range g.size).filter (Relation.TransGen g.Splits id)
  refine ⟨fun id => (below id).card, fun id => ?_, fun id alternative h => ?_⟩
  · -- Either a schema is in range and does not reach itself, or it reaches nothing.
    by_cases hlt : id < g.size
    · have hsub : below id ⊂ Finset.range g.size := by
        refine Finset.filter_ssubset.mpr ⟨id, Finset.mem_range.mpr hlt, hself id⟩
      simpa using Finset.card_lt_card hsub
    · have hnone : below id = ∅ := by
        refine Finset.filter_eq_empty_iff.mpr fun other _ hother => ?_
        obtain ⟨alternative, hsplit, _⟩ := Relation.TransGen.head'_iff.mp hother
        rw [Splits, node_of_size_le (Nat.le_of_not_lt hlt)] at hsplit
        simp at hsplit
      simpa only [hnone, Finset.card_empty] using hsize
  · apply Finset.card_lt_card
    refine Finset.ssubset_iff_of_subset ?_ |>.mpr ⟨alternative, ?_, ?_⟩
    · intro other hother
      obtain ⟨hrange, hother⟩ := Finset.mem_filter.mp hother
      exact Finset.mem_filter.mpr ⟨hrange, .head h hother⟩
    · exact Finset.mem_filter.mpr ⟨Finset.mem_range.mpr (hg.splits_lt h), .single h⟩
    · exact fun hmem => hself alternative (Finset.mem_filter.mp hmem).2

lemma Grows.splits (h : g.Grows g') : g'.Splits id alternative ↔ g.Splits id alternative := by
  rw [Splits, Splits, (h id).oneOf, (h id).anyOf]

lemma Ranked.grows (hrank : g.Ranked rank) (h : g.Grows g') (hsize : g.size ≤ g'.size) :
    g'.Ranked rank where
  rank_lt id := Nat.lt_of_lt_of_le (hrank.rank_lt id) hsize
  splits id alternative hsplits := hrank.splits id alternative (h.splits.mp hsplits)

lemma removeNullability_cases (g : Graph) (id : SchemaId) :
    g.removeNullability id = id ∨ some (g.removeNullability id) ∈ (g.node id).oneOf := by
  unfold removeNullability
  simp only
  split
  · exact .inl rfl
  · split
    · exact .inl rfl
    · split
      · rename_i only honly
        have hmem : only ∈ g.solidAlternatives id := by simp [honly]
        exact .inr (mem_alternatives.mp (List.mem_filter.mp hmem).1)
      · exact .inl rfl

lemma resolvable_cases (g : Graph) (inlineNamedAny : Bool) (id : SchemaId) :
    g.resolvable inlineNamedAny id = g.removeNullability id ∨
      g.resolvable inlineNamedAny id = g.actual (g.removeNullability id) := by
  unfold resolvable
  exact ite_eq_or_eq _ _ _

lemma Closed.removeNullability_lt (hg : g.Closed) (hid : id < g.size) :
    g.removeNullability id < g.size := by
  rcases g.removeNullability_cases id with heq | hmem
  · rwa [heq]
  · exact (hg id).oneOf _ hmem

lemma Ranked.removeNullability_le (hrank : g.Ranked rank) (id : SchemaId) :
    rank (g.removeNullability id) ≤ rank id := by
  rcases g.removeNullability_cases id with heq | hmem
  · rw [heq]
  · exact Nat.le_of_lt (hrank.splits id _ (.inl hmem))

lemma Ranked.chain_length (hrank : g.Ranked rank) {chain : List SchemaId}
    (h : chain.IsChain g.Splits) : chain.length ≤ g.size := by
  have hdecreasing : chain.IsChain fun a b => rank b < rank a :=
    h.imp fun a b hab => hrank.splits a b hab
  have hranks : (chain.map rank).Pairwise (· > ·) := by
    rw [List.pairwise_map]
    exact List.isChain_iff_pairwise.mp hdecreasing
  have hnodup : (chain.map rank).Nodup := hranks.imp fun h => Nat.ne_of_gt h
  rw [← List.length_map rank]
  refine length_le_of_lt hnodup fun n hn => ?_
  obtain ⟨id, _, rfl⟩ := List.mem_map.mp hn
  exact hrank.rank_lt id

lemma isNullableWithin_succ {dialect : Dialect} {depth : ℕ} :
    g.isNullableWithin dialect (depth + 1) id = true ↔
      (g.node id).enumeration.any Member.isNull ∨ (g.node id).hasType .null ∨
        ((g.node id).hasNoType ∧ (none ∈ (g.node id).oneOf ∨
          ∃ alternative, some alternative ∈ (g.node id).oneOf ∧
            g.isNullableWithin dialect depth alternative)) ∨
        dialect.declaresNull (g.node id) := by
  simp only [isNullableWithin, Bool.or_eq_true, Bool.and_eq_true, or_assoc, List.any_eq_true]
  refine or_congr .rfl (or_congr .rfl (or_congr (and_congr .rfl ?_) .rfl))
  constructor
  · rintro ⟨_ | alternative, hmem, h⟩
    · exact .inl hmem
    · exact .inr ⟨alternative, hmem, h⟩
  · rintro (hmem | ⟨alternative, hmem, h⟩)
    · exact ⟨none, hmem, rfl⟩
    · exact ⟨some alternative, hmem, h⟩

/-- Looking deeper than the rank of a schema does not change whether it admits null. -/
lemma Ranked.isNullableWithin_eq (hrank : g.Ranked rank) {dialect : Dialect} {depth more : ℕ}
    (hdepth : rank id < depth) (hmore : rank id < more) :
    g.isNullableWithin dialect depth id = g.isNullableWithin dialect more id := by
  induction depth generalizing id more with
  | zero => omega
  | succ depth ih =>
    cases more with
    | zero => omega
    | succ more =>
      have hbelow : ∀ alternative, some alternative ∈ (g.node id).oneOf →
          g.isNullableWithin dialect depth alternative =
            g.isNullableWithin dialect more alternative := by
        intro alternative hmem
        have hlt := hrank.splits id alternative (.inl hmem)
        exact ih (by omega) (by omega)
      have hexists : (∃ alternative, some alternative ∈ (g.node id).oneOf ∧
            g.isNullableWithin dialect depth alternative) ↔
          ∃ alternative, some alternative ∈ (g.node id).oneOf ∧
            g.isNullableWithin dialect more alternative :=
        exists_congr fun alternative => and_congr_right fun hmem => by rw [hbelow _ hmem]
      rw [Bool.eq_iff_iff, isNullableWithin_succ, isNullableWithin_succ, hexists]

end Graph

namespace Document.Represents

variable {root : Keywords Schema} {d : Document}

lemma splits_below (h : d.Represents root) {id alternative : SchemaId}
    (hsplits : d.graph.Splits id alternative) :
    ∃ path place t u, (Schema.inline root).At path t ∧ root.number path = id ∧
      (Schema.inline root).At (path ++ [place]) u ∧
      root.number (path ++ [place]) = alternative := by
  by_cases hlt : id < d.graph.size
  case neg =>
    rw [Graph.Splits, Graph.node_of_size_le (Nat.le_of_not_lt hlt)] at hsplits
    simp at hsplits
  obtain ⟨path, t, hat, rfl⟩ := h.number_surj id hlt
  have hnode := h.node path t hat
  cases t with
  | ref target =>
    obtain ⟨_, _, hnode⟩ := hnode
    simp [Graph.Splits, hnode] at hsplits
  | inline k =>
    obtain ⟨hholds, _⟩ := hnode
    rw [Graph.Splits, hholds.oneOf, hholds.anyOf] at hsplits
    rcases hsplits with hmem | hmem
    · obtain ⟨⟨entry, i⟩, hentry, heq⟩ := List.mem_map.mp hmem
      obtain ⟨s, rfl, rfl⟩ := Option.map_eq_some_iff.mp heq
      have hchild := (Keywords.Child.oneOf (List.mem_zipIdx_iff_getElem?.mp hentry)).mem_children
      exact ⟨path, .oneOf i, _, s, hat, rfl, hat.concat hchild, rfl⟩
    · obtain ⟨i, hi, rfl⟩ := List.mem_map.mp hmem
      have hget := List.getElem?_eq_getElem (List.mem_range.mp hi)
      have hchild := (Keywords.Child.anyOf hget).mem_children
      exact ⟨path, .anyOf i, _, _, hat, rfl, hat.concat hchild, rfl⟩

lemma exists_ranked (h : d.Represents root) : ∃ rank, d.graph.Ranked rank := by
  classical
  -- The depth of a schema is the length of its path.
  let depth (id : SchemaId) : ℕ :=
    if hat : ∃ path t, (Schema.inline root).At path t ∧ root.number path = id then
      hat.choose.length else 0
  have hdepth {path : Path} {t : Schema} (hat : (Schema.inline root).At path t) :
      depth (root.number path) = path.length := by
    have hex : ∃ p t, (Schema.inline root).At p t ∧ root.number p = root.number path :=
      ⟨path, t, hat, rfl⟩
    obtain ⟨u, hu, hnumber⟩ := hex.choose_spec
    have heq := h.number_inj _ u path t hu hat hnumber
    simp only [depth, dif_pos hex, heq]
  refine Graph.exists_ranked depth h.closed h.size_pos fun id alternative hsplits => ?_
  obtain ⟨path, place, t, u, hat, rfl, hbelow, rfl⟩ := h.splits_below hsplits
  rw [hdepth hat, hdepth hbelow, List.length_append, List.length_singleton]
  exact Nat.lt_succ_self _

end Document.Represents

end SchemaTypes
