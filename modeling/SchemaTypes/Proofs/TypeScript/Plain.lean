import SchemaTypes.TypeScript.Resolution
import Mathlib.Tactic.Common

/-! A schema without a name is a keyword, or it has no type and is the union of its alternatives. -/

namespace SchemaTypes

namespace Node

/-- The keyword for a schema by its type alone. -/
def keyword (node : Node) : TypeExpr :=
  match node.primaryType with
  | some .integer | some .number => .number
  | some .boolean => .boolean
  | some .string => .string
  | some _ => .any
  | none => if node.hasType .null then .null else .any

lemma types_eq_nil {node : Node} (h : node.primaryType = none)
    (hnull : node.hasType .null = false) : node.types = [] := by
  rw [primaryType, List.find?_eq_none] at h
  refine List.eq_nil_iff_forall_not_mem.mpr fun type htype => ?_
  have heq : type = .null := by simpa using h type htype
  rw [hasType, List.contains_eq_mem, decide_eq_false_iff_not] at hnull
  exact hnull (heq ▸ htype)

/-- How a schema without a name is spelled, whatever its usages are resolved by. -/
inductive Plain (node : Node) : Prop
  | keyword (hplain : node.types ≠ [] ∨ node.oneOf = [] ∧ node.anyOf = [])
      (h : ∀ resolve, SessionM.resolvePlain resolve node = pure node.keyword)
  | union (alternatives : List (Option SchemaId)) (hno : node.types = [])
      (hne : alternatives ≠ [])
      (halternatives : alternatives =
        if node.oneOf = [] then node.anyOf.map some else node.oneOf)
      (h : ∀ resolve, SessionM.resolvePlain resolve node =
        SessionM.spellUnion resolve alternatives)

lemma plain (node : Node) : node.Plain := by
  cases hprimary : node.primaryType with
  | some type =>
    have hmem : type ∈ node.types := List.mem_of_find?_eq_some hprimary
    refine .keyword (.inl (List.ne_nil_of_mem hmem)) fun resolve => ?_
    simp only [SessionM.resolvePlain, keyword, hprimary]
    cases type <;> rfl
  | none =>
    cases hnull : node.hasType .null with
    | true =>
      have hmem : JsonType.null ∈ node.types := by simpa [hasType] using hnull
      refine .keyword (.inl (List.ne_nil_of_mem hmem)) fun resolve => ?_
      simp [SessionM.resolvePlain, keyword, hprimary, hnull]
    | false =>
      have hno := types_eq_nil hprimary hnull
      by_cases hone : node.oneOf = []
      · by_cases hany : node.anyOf = []
        · refine .keyword (.inr ⟨hone, hany⟩) fun resolve => ?_
          simp [SessionM.resolvePlain, keyword, hprimary, hnull, hone, hany]
        · have hne : node.anyOf.map some ≠ [] := by simpa using hany
          refine .union _ hno hne (by rw [if_pos hone]) fun resolve => ?_
          simp [SessionM.resolvePlain, hprimary, hnull, hone, hany]
      · refine .union _ hno hone (by rw [if_neg hone]) fun resolve => ?_
        simp [SessionM.resolvePlain, hprimary, hnull, hone]

lemma mem_of_mem_union {node : Node} {alternatives : List (Option SchemaId)} {id : SchemaId}
    (halternatives : alternatives = if node.oneOf = [] then node.anyOf.map some else node.oneOf)
    (hid : some id ∈ alternatives) : some id ∈ node.oneOf ∨ id ∈ node.anyOf := by
  rw [halternatives] at hid
  split at hid
  · exact .inr (by simpa using hid)
  · exact .inl hid

end Node

end SchemaTypes
