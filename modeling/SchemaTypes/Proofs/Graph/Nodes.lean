import SchemaTypes.Graph.Basic
import Mathlib.Tactic.Common

/-! Reading the nodes of a graph after it was changed. -/

namespace SchemaTypes.Graph

variable (g : Graph) (node : Node)

@[simp] lemma size_push : (g.push node).size = g.size + 1 := Array.size_push node

@[simp] lemma size_set (id : SchemaId) : (g.set id node).size = g.size :=
  Array.size_setIfInBounds

@[simp] lemma size_update (id : SchemaId) (f : Node → Node) : (g.update id f).size = g.size :=
  g.size_set (f (g.node id)) id

lemma node_push_size : (g.push node).node g.size = node := by
  simp [Graph.node, push, size, Array.getD_eq_getD_getElem?]

variable {g}

lemma node_push_of_lt {id : SchemaId} (h : id < g.size) : (g.push node).node id = g.node id := by
  have hne : id ≠ g.nodes.size := Nat.ne_of_lt h
  simp [Graph.node, push, Array.getD_eq_getD_getElem?, Array.getElem?_push, hne]

lemma node_set_self {id : SchemaId} (h : id < g.size) : (g.set id node).node id = node := by
  simp [Graph.node, set, Array.getD_eq_getD_getElem?, show id < g.nodes.size from h]

lemma node_set_of_ne {id other : SchemaId} (h : other ≠ id) :
    (g.set id node).node other = g.node other := by
  simp [Graph.node, set, Array.getD_eq_getD_getElem?, h.symm]

lemma node_of_size_le {id : SchemaId} (h : g.size ≤ id) : g.node id = {} := by
  simp [Graph.node, Array.getD_eq_getD_getElem?, Array.getElem?_eq_none h]

lemma lt_size_of_ne {β : Type} (p : Node → β) {id : SchemaId} (h : p (g.node id) ≠ p {}) :
    id < g.size := by
  by_contra hge
  exact h (by rw [node_of_size_le (Nat.le_of_not_lt hge)])

end SchemaTypes.Graph
