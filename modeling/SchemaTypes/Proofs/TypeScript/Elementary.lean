import SchemaTypes.Proofs.Session.Repetition
import SchemaTypes.Proofs.Session.Steady

/-! Usages that are spelled by one name or keyword: references to definitions, and primitive types.
Which one it is does not depend on where the usage stands. -/

namespace SchemaTypes

open Session SessionM

namespace JsonType

def isPrimitive : JsonType → Bool
  | string | number | integer | boolean | null => true
  | array | object | file => false

/-- The keyword for values of primitive types; of several types the first one counts. -/
def keyword (types : List JsonType) : TypeExpr :=
  match types.find? (· != null) with
  | some boolean => .boolean
  | some string => .string
  | some _ => .number
  | none => .null

end JsonType

/-- The values have primitive types, and that is all that restricts them. -/
structure Node.IsPrimitive (node : Node) : Prop where
  reference : node.reference = none
  oneOf : node.oneOf = []
  enumeration : node.enumeration = []
  typed : node.types ≠ []
  types : ∀ type ∈ node.types, type.isPrimitive

namespace Node.IsPrimitive

variable {node : Node}

lemma hasType_eq_false (h : node.IsPrimitive) {type : JsonType} (htype : type.isPrimitive = false) :
    node.hasType type = false := by
  rw [← Bool.not_eq_true, Node.hasType, List.contains_iff_mem]
  intro hmem
  rw [h.types type hmem] at htype
  cases htype

lemma isObject (h : node.IsPrimitive) : node.isObject = false := h.hasType_eq_false rfl

lemma isArray (h : node.IsPrimitive) : node.isArray = false := h.hasType_eq_false rfl

lemma hasNoType (h : node.IsPrimitive) : node.hasNoType = false := by
  simp [Node.hasNoType, h.typed]

lemma isEnumeration (h : node.IsPrimitive) : node.isEnumeration = false := by
  simp [Node.isEnumeration, h.enumeration]

lemma isAny (h : node.IsPrimitive) : node.isAny = false := by
  simp [Node.isAny, h.hasNoType, h.isObject]

lemma isDictionary (h : node.IsPrimitive) : node.isDictionary = false := by
  simp [Node.isDictionary, h.isObject]

lemma resolvePlain (h : node.IsPrimitive) (resolve : Resolver) :
    SessionM.resolvePlain resolve node = pure (JsonType.keyword node.types) := by
  unfold SessionM.resolvePlain JsonType.keyword Node.primaryType
  cases hfind : node.types.find? (· != .null) with
  | some type =>
    have hprimitive := h.types type (List.mem_of_find?_eq_some hfind)
    have hne : type ≠ .null := by simpa using List.find?_some hfind
    cases type with
    | string | number | integer | boolean => rfl
    | null => exact absurd rfl hne
    | array | object | file => cases hprimitive
  | none =>
    obtain ⟨type, hmem⟩ := List.exists_mem_of_ne_nil _ h.typed
    have hnull : type = .null := by simpa using List.find?_eq_none.mp hfind type hmem
    have htype : node.hasType .null := by
      rw [Node.hasType, List.contains_iff_mem, ← hnull]
      exact hmem
    simp only [htype, if_true]

end Node.IsPrimitive

lemma Graph.isDefinitionType_of_primitive {g : Graph} {id : SchemaId}
    (h : (g.node id).IsPrimitive) (inlineNamedAny : Bool) :
    g.isDefinitionType inlineNamedAny id = false := by
  simp [isDefinitionType, h.isAny, h.isEnumeration, h.hasNoType, h.isObject]

/-- Elementary schemas are references to definitions that get a type, and primitive types. -/
inductive Graph.Elementary (g : Graph) (inlineNamedAny : Bool) (id : SchemaId) : Prop
  | definition (href : g.isReference id) (hend : (g.node (g.actual id)).reference = none)
      (hdef : g.isDefinitionType inlineNamedAny (g.actual id))
  | primitive (h : (g.node (g.actual id)).IsPrimitive)

lemma Graph.Elementary.ended {g : Graph} {inlineNamedAny : Bool} {id : SchemaId}
    (h : g.Elementary inlineNamedAny id) : (g.node (g.actual id)).reference = none := by
  cases h with
  | definition _ hend => exact hend
  | primitive hprimitive => exact hprimitive.reference

namespace Session

variable {env : Environment} {s t : Session} {g : Graph} {id : SchemaId} {e e' : TypeExpr}
  {inlineNamedAny : Bool}

/-- How elementary usages of a schema are spelled in a session. -/
inductive Spelling (g : Graph) (inlineNamedAny : Bool) (s : Session) (id : SchemaId) :
    TypeExpr → Prop
  | keyword (h : (g.node id).IsPrimitive) :
      Spelling g inlineNamedAny s id (JsonType.keyword (g.node id).types)
  | name (name : String) (hdef : g.isDefinitionType inlineNamedAny id)
      (hname : s.nameOf? (s.target id) = some name) : Spelling g inlineNamedAny s id (.ident name)

lemma Spelling.unique (h : Spelling g inlineNamedAny s id e)
    (h' : Spelling g inlineNamedAny s id e') : e = e' := by
  cases h with
  | keyword hprimitive =>
    cases h' with
    | keyword => rfl
    | name _ hdef _ =>
      rw [Graph.isDefinitionType_of_primitive hprimitive] at hdef
      cases hdef
  | name name hdef hname =>
    cases h' with
    | keyword hprimitive =>
      rw [Graph.isDefinitionType_of_primitive hprimitive] at hdef
      cases hdef
    | name name' _ hname' => rw [Option.some.inj (hname.symm.trans hname')]

lemma Spelling.exists_ident (h : Spelling g inlineNamedAny s id e) :
    ∃ name, e = .ident name := by
  cases h with
  | keyword =>
    unfold JsonType.keyword
    split <;> exact ⟨_, rfl⟩
  | name name => exact ⟨name, rfl⟩

/-- Names stay, so that a usage is spelled as before unless the schema has got a wrapper. -/
lemma Spelling.later (h : Spelling g inlineNamedAny s id e) (hrun : Run env s t)
    (hwrapper : g.isDefinitionType inlineNamedAny id → t.wrapper? id = s.wrapper? id) :
    Spelling g inlineNamedAny t id e := by
  cases h with
  | keyword hprimitive => exact .keyword hprimitive
  | name name hdef hname =>
    refine .name name hdef ?_
    rw [target, hwrapper hdef]
    exact hrun.nameOf? hname

lemma Run.primitive (h : Run env s t) {rank : SchemaId → ℕ} (hrank : s.graph.Ranked rank)
    (hid : (s.graph.node id).IsPrimitive) : (t.graph.node id).IsPrimitive := by
  have hmembers : (t.graph.node id).enumeration = [] := by
    rcases h.members_cases hrank with heq | hsolid
    · rw [heq, hid.enumeration]
    · exact absurd hid.oneOf (Graph.oneOf_ne_nil_of_solid hsolid)
  obtain ⟨h₁, h₂, _, h₄, h₅⟩ := hid
  constructor
  · rwa [(h.grows id).reference]
  · rwa [(h.grows id).oneOf]
  · exact hmembers
  · rwa [(h.grows id).types]
  · rwa [(h.grows id).types]

end Session

namespace SessionM

variable {env : Environment} {s t : Session} {g : Graph} {id : SchemaId} {rank : SchemaId → ℕ}
  {resolver : Resolver} {hint : Option String} {e : TypeExpr}

lemma resolveBare_primitive (hone : (s.graph.node id).oneOf = [])
    (h : (s.graph.node (s.graph.actual id)).IsPrimitive)
    (hwrapper : s.wrapper? (s.graph.actual id) = none) :
    resolveBare resolver id hint env s =
      (.ok (JsonType.keyword (s.graph.node (s.graph.actual id)).types), s) := by
  have hdef := Graph.isDefinitionType_of_primitive h env.resolver.inlineNamedAny
  have husage : s.graph.resolvable env.resolver.inlineNamedAny id = s.graph.actual id := by
    simp only [Graph.resolvable, Graph.removeNullability_of_oneOf hone, hdef, Bool.false_eq_true,
      if_false]
  have hgenerates : s.graph.generatesType env.resolver.inlineNamedAny id = false := by
    simp [Graph.generatesType, husage, h.reference, h.isObject]
  rw [resolveBare, bind_ok get_apply, bind_ok read_apply]
  simp only [husage, Graph.actual_of_reference h.reference, hwrapper, h.isAny, Bool.false_and,
    Bool.false_eq_true, if_false, hgenerates, h.isEnumeration, Bool.or_self, h.isArray,
    h.isDictionary, h.resolvePlain, pure_apply]

section

variable (href : ∀ id, (g.node id).reference.isSome → (g.node id).oneOf = [])
  (hrun : Session.Run env { graph := g } s)

include href hrun

lemma resolveBare_keyword (hclosed : g.Closed) (hrank : g.Ranked rank)
    (h : (g.node (g.actual id)).IsPrimitive) :
    resolveBare resolver id hint env s =
      (.ok (JsonType.keyword (g.node (g.actual id)).types), s) := by
  have hgrows : g.Grows s.graph := hrun.grows
  have hs : s.Extends g := hrun.extends (.start hclosed)
  have hactual : s.graph.actual id = g.actual id := hgrows.actual_of_ended h.reference
  have hone : (s.graph.node id).oneOf = [] := by
    rw [(hgrows id).oneOf]
    by_cases hid : (g.node id).reference.isSome
    · exact href id hid
    · have hself : g.actual id = id := Graph.actual_of_reference (by simpa using hid)
      rw [← hself]
      exact h.oneOf
  have hprimitive : (s.graph.node (g.actual id)).IsPrimitive := hrun.primitive hrank h
  have hnone : s.wrapper? (g.actual id) = none := by
    cases hwrapper : s.wrapper? (g.actual id) with
    | none => rfl
    | some wrapper => exact absurd h.oneOf (hs.bases _ (hs.wrapper?_eq_some.mp hwrapper))
  have hresolve := @resolveBare_primitive env s id resolver hint hone (by rwa [hactual])
    (by rwa [hactual])
  rwa [hactual, (hgrows _).types] at hresolve

lemma resolveBare_asks (hid : (g.node id).reference.isSome)
    (hend : (g.node (g.actual id)).reference = none)
    (hdef : g.isDefinitionType env.resolver.inlineNamedAny (g.actual id)) :
    ∃ usage, s.graph.carrier usage = s.target (g.actual id) ∧
      resolveBare resolver id hint env s =
        (typeName usage hint >>= fun name => pure (.ident name)) env s := by
  have hgrows : g.Grows s.graph := hrun.grows
  have hactual : s.graph.actual id = g.actual id := hgrows.actual_of_ended hend
  have hone : (s.graph.node id).oneOf = [] := by
    rw [(hgrows id).oneOf]
    exact href id hid
  have hreference : s.graph.isReference id := by
    rw [Graph.isReference, (hgrows id).reference]
    exact hid
  have hdef' : s.graph.isDefinitionType env.resolver.inlineNamedAny (s.graph.actual id) := by
    rw [hactual]
    exact hgrows.isDefinitionType hdef
  cases hwrapper : s.wrapper? (g.actual id) with
  | some wrapper =>
    refine ⟨wrapper, ?_, resolveBare_wrapped hone hdef' (by rwa [hactual])⟩
    rw [(hrun.plainWrappers (.start g)).carrier hwrapper, Session.target, hwrapper,
      Option.getD_some]
  | none =>
    refine ⟨id, ?_, resolveBare_reference hone hreference hdef' (by rwa [hactual])⟩
    rw [Graph.carrier_of_oneOf hone, hactual, Session.target, hwrapper, Option.getD_none]

lemma resolveBare_elementary (hclosed : g.Closed) (hrank : g.Ranked rank)
    (h : g.Elementary env.resolver.inlineNamedAny id) :
    ((g.node (g.actual id)).IsPrimitive ∧ resolveBare resolver id hint env s =
        (.ok (JsonType.keyword (g.node (g.actual id)).types), s)) ∨
      (g.isDefinitionType env.resolver.inlineNamedAny (g.actual id) ∧
        ∃ usage, s.graph.carrier usage = s.target (g.actual id) ∧
          resolveBare resolver id hint env s =
            (typeName usage hint >>= fun name => pure (.ident name)) env s) := by
  cases h with
  | primitive h => exact .inl ⟨h, resolveBare_keyword href hrun hclosed hrank h⟩
  | definition hid hend hdef => exact .inr ⟨hdef, resolveBare_asks href hrun hid hend hdef⟩

end

/-- The resolver goes into the alternatives of a usage by itself. -/
def Bare (resolver : Resolver) : Prop :=
  ∀ id hint env s, ∃ inner, resolver id false hint env s = resolveBare inner id hint env s

lemma resolve_bare : Bare SessionM.resolve := fun id hint _ _ => resolve_false id hint

lemma resolveWithin_bare (depth : ℕ) : Bare (resolveWithin (depth + 1)) :=
  fun id hint _ _ => ⟨resolveWithin depth, resolveWithin_false depth id hint⟩

section

variable (href : ∀ id, (g.node id).reference.isSome → (g.node id).oneOf = [])
  (hclosed : g.Closed) (hrank : g.Ranked rank) (hrun : Session.Run env { graph := g } s)
  (h : g.Elementary env.resolver.inlineNamedAny id) (hbare : Bare resolver)

include href hclosed hrank hrun h hbare

lemma spelling_of_resolved (hresolved : resolver id false hint env s = (.ok e, t)) :
    Session.Run env s t ∧
      ((g.isDefinitionType env.resolver.inlineNamedAny (g.actual id) →
          t.wrapper? (g.actual id) = s.wrapper? (g.actual id)) →
        Session.Spelling g env.resolver.inlineNamedAny t (g.actual id) e) := by
  obtain ⟨inner, hinner⟩ := hbare id hint env s
  rw [hinner] at hresolved
  rcases resolveBare_elementary href hrun hclosed hrank h with
    ⟨hprimitive, heq⟩ | ⟨hdef, usage, hcarrier, heq⟩
  · rw [heq] at hresolved
    cases hresolved
    exact ⟨.refl, fun _ => .keyword hprimitive⟩
  · rw [heq] at hresolved
    obtain ⟨name, u, hname, hpure⟩ := bind_eq_ok hresolved
    cases hpure
    obtain ⟨hlater, hnamed⟩ := (typeName_leads usage hint).result hname
    refine ⟨hlater, fun hwrapper => .name name hdef ?_⟩
    rw [hcarrier] at hnamed
    rwa [Session.target, hwrapper hdef]

lemma resolved_of_spelling
    (hspelling : Session.Spelling g env.resolver.inlineNamedAny s (g.actual id) e) :
    resolver id false hint env s = (.ok e, s) := by
  obtain ⟨inner, hinner⟩ := hbare id hint env s
  rw [hinner]
  rcases resolveBare_elementary href hrun hclosed hrank h with
    ⟨hprimitive, heq⟩ | ⟨hdef, usage, hcarrier, heq⟩
  · rw [heq, hspelling.unique (.keyword hprimitive)]
  · cases hspelling with
    | keyword hprimitive =>
      rw [Graph.isDefinitionType_of_primitive hprimitive] at hdef
      cases hdef
    | name name _ hname =>
      rw [heq, bind_ok (typeName_named (by rwa [hcarrier]) hint), pure_apply]

end

end SessionM

end SchemaTypes
