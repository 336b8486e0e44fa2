import SchemaTypes.Proofs.Graph.Nullability
import SchemaTypes.Proofs.TypeScript.Definitions
import SchemaTypes.Proofs.TypeScript.Unions

/-! Schemas that only compose others, as definitions and in place. -/

namespace SchemaTypes

open Session SessionM

/-- The values have primitive types, and that is all that the keywords say about them. -/
structure Keywords.IsPrimitive (k : Keywords Schema) : Prop where
  oneOf : k.oneOf = []
  enumeration : k.enumeration = []
  typed : (k.types.map TypeSet.toList).getD [] ≠ []
  types : ∀ type ∈ (k.types.map TypeSet.toList).getD [], type.isPrimitive

/-- References to definitions that get a type, and primitive types. -/
inductive Schema.Elementary (root : Keywords Schema) (d : Document) (inlineNamedAny : Bool) :
    Schema → Prop
  | ref (target : String) (id : SchemaId) (hpoints : root.Points target id)
      (hend : (d.graph.node (d.graph.actual id)).reference = none)
      (h : d.graph.isDefinitionType inlineNamedAny (d.graph.actual id) ∨
        (d.graph.node (d.graph.actual id)).IsPrimitive) :
      Elementary root d inlineNamedAny (.ref target)
  | inline (k : Keywords Schema) (h : k.IsPrimitive) : Elementary root d inlineNamedAny (.inline k)

namespace Schema

/-- A reference does not admit null itself, and a primitive type does if it is one of several. -/
def isSolid : Schema → Bool
  | ref _ => true
  | inline k => !((k.types.map TypeSet.toList).getD []).contains .null

end Schema

/-- The only keyword is `oneOf`, with two alternatives or more that do not admit null, or `anyOf`,
with two or more. -/
inductive Keywords.Composes (root : Keywords Schema) (d : Document) (inlineNamedAny : Bool) :
    Keywords Schema → Prop
  | oneOf (alternatives : List (Option Schema))
      (hsolid : 1 < (alternatives.filter (·.any Schema.isSolid)).length)
      (h : ∀ schema, some schema ∈ alternatives → schema.Elementary root d inlineNamedAny) :
      Composes root d inlineNamedAny { oneOf := alternatives }
  | anyOf (alternatives : List Schema) (hlength : 1 < alternatives.length)
      (h : ∀ schema ∈ alternatives, schema.Elementary root d inlineNamedAny) :
      Composes root d inlineNamedAny { anyOf := alternatives }

lemma Schema.length_filter_isSolid_le {number : ℕ → SchemaId} {p : SchemaId → Bool}
    (alternatives : List (Option Schema)) (start : ℕ)
    (h : ∀ i schema, alternatives[i]? = some (some schema) → schema.isSolid →
      p (number (start + i))) :
    (alternatives.filter (·.any isSolid)).length ≤
      ((((alternatives.zipIdx start).map fun (entry, i) => entry.map fun _ => number i).filterMap
        id).filter p).length := by
  induction alternatives generalizing start with
  | nil => exact Nat.le_refl 0
  | cons alternative rest ih =>
    have hrest := ih (start + 1) fun i schema hget hsolid => by
      rw [Nat.add_right_comm]
      exact h (i + 1) schema hget hsolid
    rw [List.zipIdx_cons, List.map_cons]
    cases alternative with
    | none => exact hrest
    | some schema =>
      cases hsolid : schema.isSolid with
      | false =>
        rw [List.filter_cons_of_neg (by simp [hsolid])]
        exact hrest.trans (((List.sublist_cons_self _ _).filter p).length_le)
      | true =>
        have hp : p (number start) := h 0 schema rfl hsolid
        rw [List.filter_cons_of_pos (by simp [hsolid])]
        simpa [hp] using hrest

lemma Keywords.Points.unique {root : Keywords Schema} {target : String} {id id' : SchemaId}
    (h : root.Points target id) (h' : root.Points target id') : id = id' := by
  obtain ⟨path, _, _, htext, _, _, rfl⟩ := h
  obtain ⟨path', _, _, htext', _, _, rfl⟩ := h'
  rw [Path.text_injective (htext.trans htext'.symm)]

lemma Graph.actual_of_link {g : Graph} {id target : SchemaId}
    (href : (g.node id).reference = some target)
    (hend : (g.node (g.actual target)).reference = none) : g.actual id = g.actual target := by
  have hfollow : g.follow (g.size + 1) id = g.actual target := by
    rw [Graph.follow, href]
    rfl
  rw [← hfollow] at hend ⊢
  exact actual_of_follow hend

namespace Session

variable {env : Environment} {s t u : Session} {g : Graph} {id target : SchemaId}

/-- Whether a schema has a wrapper is settled when it is prepared. -/
lemma Run.wrapper?_prepared (h : Run env t u) (hprepare : s.prepare id = (target, t)) :
    u.wrapper? id = t.wrapper? id := by
  rcases prepare_settles hprepare with hwrapper | ⟨_, hunwrapped⟩
  · rw [h.wrapper? hwrapper, hwrapper]
  · rw [(h.unwrapped hunwrapped).2, hunwrapped.2]

lemma target_prepared (hprepare : s.prepare id = (target, t)) : t.target id = target := by
  rcases prepare_settles hprepare with hwrapper | ⟨rfl, hunwrapped⟩
  · rw [Session.target, hwrapper, Option.getD_some]
  · rw [Session.target, hunwrapped.2, Option.getD_none]

lemma Extends.wrapped?_eq_none (hs : Extends g s) (hid : id < g.size) : s.wrapped? id = none := by
  cases hwrapped : s.wrapped? id with
  | none => rfl
  | some base =>
    have hmem := hs.wrapper?_eq_some.mpr (hs.wrapped?_eq_some.mp hwrapped)
    exact absurd (hs.mem_wrappers_iff.mp ⟨base, hmem⟩).1 (Nat.not_le_of_lt hid)

/-- A choice is declared by its alternatives, whether it is named itself or by its wrapper. -/
lemma Extends.declare_target (hs : Extends g s) (hid : id < g.size)
    (hmembers : (s.graph.node id).enumeration.any Member.isSchema) (name : String) :
    declare (s.target id) name env s = declareChoice ⟨name, id⟩ env s := by
  cases hwrapper : s.wrapper? id with
  | some wrapper =>
    rw [Session.target, hwrapper, Option.getD_some]
    exact declare_choice name (.inl (hs.wrapped?_eq_some.mpr (hs.wrapper?_eq_some.mp hwrapper)))
  | none =>
    rw [Session.target, hwrapper, Option.getD_none]
    exact declare_choice name (.inr ⟨hs.wrapped?_eq_none hid, rfl, hmembers⟩)

lemma Run.declared_variants {rank : SchemaId → ℕ} {name : String} {decl : Declaration}
    (hclosed : g.Closed) (hrank : g.Ranked rank) (hrun : Run env { graph := g } s)
    (hid : id < g.size) (hchoice : g.IsChoice id) (hprepared : id ∈ s.prepared)
    (hbetween : DeclaredBetween env s t (s.target id, name) decl) :
    ∃ found, decl.shape = .union found ∧
      List.Forall₂ (ResolvedBetween env SessionM.resolve s t)
        ((g.node id).alternatives.map some) found := by
  obtain ⟨u, v, hfirst, hdeclare, hlast⟩ := hbetween
  have hbegin : Run env { graph := g } u := hrun.trans hfirst
  have htarget : u.target id = s.target id := by
    rw [Session.target, Session.target]
    cases hwrapper : s.wrapper? id with
    | some wrapper => rw [hfirst.wrapper? hwrapper]
    | none => rw [(hfirst.unwrapped ⟨hprepared, hwrapper⟩).2]
  have hmembers : (u.graph.node id).enumeration.any Member.isSchema := by
    refine hbegin.expanded hrank id (hfirst.prepared_subset hprepared) ?_ hchoice.solid
    simp [Node.hasNoType, hchoice.types]
  have hs : u.Extends g := hbegin.extends (.start hclosed)
  rw [← htarget, hs.declare_target hid hmembers] at hdeclare
  obtain ⟨found, hvariants, hshape⟩ := declareChoice_shape hdeclare
  rw [variants, bind_ok graph_apply] at hvariants
  obtain ⟨hmid, hfound⟩ := (resolveVariants_between _).result hvariants
  have halternatives : (u.graph.node id).alternatives = (g.node id).alternatives := by
    rw [Node.alternatives, Node.alternatives, (hbegin.grows id).oneOf]
  rw [halternatives] at hfound
  have hne : found ≠ [] := by
    rintro rfl
    have hlength := hfound.length_eq
    have hsolid := hchoice.solid.trans_le (List.length_filter_le _ _)
    rw [List.length_map] at hlength
    rw [hlength] at hsolid
    simp at hsolid
  refine ⟨found, ?_, hfound.imp fun _ _ h => h.mono hfirst hlast⟩
  rw [hshape, if_neg (by simpa using hne)]

end Session

/-- The variants of the declared union are, but for null, the members of the expression. -/
def Declaration.SpellsOut (decl : Declaration) (env : Environment) (e : TypeExpr) : Prop :=
  ∃ variants, decl.shape = .union variants ∧ ∀ variant, variant ≠ .null →
    variant ≠ .nullKeyword env.typescript.nullKeyword →
      (variant ∈ variants ↔ variant ∈ e.unionMembers)

namespace Document

variable {root : Keywords Schema} {d : Document} {env : Environment} {s t : Session}
  {path path' : Path} {schema : Schema} {k : Keywords Schema} {inlineNamedAny : Bool}
  {e : TypeExpr}

namespace Represents

variable (h : d.Represents root)

include h

lemma primitive_at (hat : (Schema.inline root).At path (.inline k)) (hk : k.IsPrimitive) :
    (d.graph.node (root.number path)).IsPrimitive := by
  have hnode := (h.node path _ hat).1
  obtain ⟨h₁, h₂, h₃, h₄⟩ := hk
  constructor
  · exact hnode.reference
  · rw [hnode.oneOf, h₁]
    rfl
  · rw [hnode.enumeration, h₂]
    rfl
  · rwa [hnode.types]
  · rwa [hnode.types]

lemma elementary_at (hat : (Schema.inline root).At path schema)
    (hschema : schema.Elementary root d inlineNamedAny) :
    d.graph.Elementary inlineNamedAny (root.number path) := by
  have hnode := h.node path _ hat
  cases hschema with
  | ref target id hpoints hend hdef =>
    obtain ⟨id', hpoints', hnode⟩ := hnode
    obtain rfl := hpoints.unique hpoints'
    have href : (d.graph.node (root.number path)).reference = some id := by rw [hnode]
    have hactual := Graph.actual_of_link href hend
    rw [← hactual] at hend hdef
    rcases hdef with hdef | hprimitive
    · exact .definition (by rw [Graph.isReference, href]; rfl) hend hdef
    · exact .primitive hprimitive
  | inline k hk =>
    refine .primitive ?_
    rw [Graph.actual_of_reference hnode.1.reference]
    exact h.primitive_at hat hk

/-- The same elementary schema at two paths: either the same definition is behind both, or they
are of the same primitive types. -/
lemma elementary_twin (hat : (Schema.inline root).At path schema)
    (hat' : (Schema.inline root).At path' schema)
    (hschema : schema.Elementary root d inlineNamedAny) :
    d.graph.actual (root.number path') = d.graph.actual (root.number path) ∨
      (d.graph.node (d.graph.actual (root.number path))).IsPrimitive ∧
        (d.graph.node (d.graph.actual (root.number path'))).IsPrimitive ∧
        (d.graph.node (d.graph.actual (root.number path'))).types =
          (d.graph.node (d.graph.actual (root.number path))).types := by
  have hnode := h.node path _ hat
  have hnode' := h.node path' _ hat'
  cases hschema with
  | ref target id hpoints hend hdef =>
    obtain ⟨id₁, hpoints₁, hnode⟩ := hnode
    obtain ⟨id₂, hpoints₂, hnode'⟩ := hnode'
    obtain rfl := hpoints.unique hpoints₁
    obtain rfl := hpoints.unique hpoints₂
    have hlink : (d.graph.node (root.number path)).reference = some id := by rw [hnode]
    have hlink' : (d.graph.node (root.number path')).reference = some id := by rw [hnode']
    exact .inl ((Graph.actual_of_link hlink' hend).trans (Graph.actual_of_link hlink hend).symm)
  | inline k hk =>
    right
    rw [Graph.actual_of_reference hnode.1.reference,
      Graph.actual_of_reference hnode'.1.reference, hnode.1.types, hnode'.1.types]
    exact ⟨h.primitive_at hat hk, h.primitive_at hat' hk, rfl⟩

lemma spelling_twin (hat : (Schema.inline root).At path schema)
    (hat' : (Schema.inline root).At path' schema)
    (hschema : schema.Elementary root d inlineNamedAny)
    (hspelling : Spelling d.graph inlineNamedAny s (d.graph.actual (root.number path)) e) :
    Spelling d.graph inlineNamedAny s (d.graph.actual (root.number path')) e := by
  rcases h.elementary_twin hat hat' hschema with heq | ⟨hprimitive, hprimitive', htypes⟩
  · rwa [heq]
  · rw [hspelling.unique (.keyword hprimitive), ← htypes]
    exact .keyword hprimitive'

lemma twin_alternative (hat : (Schema.inline root).At path (.inline k))
    (hat' : (Schema.inline root).At path' (.inline k)) {id : SchemaId}
    (hid : some id ∈ (d.graph.node (root.number path)).oneOf) :
    ∃ schema twin below below', some schema ∈ k.oneOf ∧
      (Schema.inline root).At below schema ∧ root.number below = id ∧
      (Schema.inline root).At below' schema ∧ root.number below' = twin ∧
      some twin ∈ (d.graph.node (root.number path')).oneOf := by
  obtain ⟨i, schema, hget, rfl⟩ := (h.some_mem_oneOf hat).mp hid
  have hmem := (Keywords.Child.oneOf hget).mem_children
  exact ⟨schema, _, _, _, List.mem_of_getElem? hget, hat.concat hmem, rfl, hat'.concat hmem, rfl,
    (h.some_mem_oneOf hat').mpr ⟨i, schema, hget, rfl⟩⟩

lemma spellings_sub (hat : (Schema.inline root).At path (.inline k))
    (hat' : (Schema.inline root).At path' (.inline k))
    (helementary : ∀ schema, some schema ∈ k.oneOf → schema.Elementary root d inlineNamedAny) :
    (∃ id, some id ∈ (d.graph.node (root.number path)).oneOf ∧
      Spelling d.graph inlineNamedAny s (d.graph.actual id) e) →
    ∃ id, some id ∈ (d.graph.node (root.number path')).oneOf ∧
      Spelling d.graph inlineNamedAny s (d.graph.actual id) e := by
  rintro ⟨id, hid, hspelling⟩
  obtain ⟨schema, twin, below, below', hschema, hbelow, rfl, hbelow', rfl, htwin⟩ :=
    h.twin_alternative hat hat' hid
  exact ⟨_, htwin, h.spelling_twin hbelow hbelow' (helementary schema hschema) hspelling⟩

lemma elementary_alternatives (hat : (Schema.inline root).At path (.inline k))
    (helementary : ∀ schema, some schema ∈ k.oneOf → schema.Elementary root d inlineNamedAny)
    {id : SchemaId} (hid : some id ∈ (d.graph.node (root.number path)).oneOf) :
    d.graph.Elementary inlineNamedAny id := by
  obtain ⟨i, schema, hget, rfl⟩ := (h.some_mem_oneOf hat).mp hid
  exact h.elementary_at (hat.concat (Keywords.Child.oneOf hget).mem_children)
    (helementary schema (List.mem_of_getElem? hget))

/-- What holds of the wrappers of a choice's alternatives at one path holds of them at another. -/
lemma wrapper_twin (hat : (Schema.inline root).At path (.inline k))
    (hat' : (Schema.inline root).At path' (.inline k))
    (helementary : ∀ schema, some schema ∈ k.oneOf → schema.Elementary root d inlineNamedAny)
    (hwrapper : ∀ id, some id ∈ (d.graph.node (root.number path)).oneOf →
      d.graph.isDefinitionType inlineNamedAny (d.graph.actual id) →
        s.wrapper? (d.graph.actual id) = t.wrapper? (d.graph.actual id)) :
    ∀ id, some id ∈ (d.graph.node (root.number path')).oneOf →
      d.graph.isDefinitionType inlineNamedAny (d.graph.actual id) →
        s.wrapper? (d.graph.actual id) = t.wrapper? (d.graph.actual id) := by
  intro id hid hdef
  obtain ⟨schema, twin, below, below', hschema, hbelow, rfl, hbelow', rfl, htwin⟩ :=
    h.twin_alternative hat' hat hid
  rcases h.elementary_twin hbelow hbelow' (helementary schema hschema) with heq | ⟨hprimitive, _⟩
  · rw [← heq] at hdef ⊢
    exact hwrapper _ htwin hdef
  · rw [Graph.isDefinitionType_of_primitive hprimitive] at hdef
    cases hdef

lemma isNullable_of_isSolid (hat : (Schema.inline root).At path schema)
    (hschema : schema.Elementary root d inlineNamedAny) (hsolid : schema.isSolid) :
    d.graph.isNullable .jsonSchema (root.number path) = false := by
  rw [h.isNullable_eq hat]
  cases hschema with
  | ref target id => rfl
  | inline k hk =>
    have hnull : k.typeList.contains .null = false := by
      simpa [Schema.isSolid, Keywords.typeList] using hsolid
    rw [Schema.admitsNull_inline, Keywords.admitsNull, hk.enumeration, hk.oneOf, hnull]
    simp [Dialect.declaredBy]

lemma solidAlternatives_le (hat : (Schema.inline root).At path (.inline k))
    (helementary : ∀ schema, some schema ∈ k.oneOf → schema.Elementary root d inlineNamedAny) :
    (k.oneOf.filter (·.any Schema.isSolid)).length ≤
      (d.graph.solidAlternatives (root.number path)).length := by
  rw [Graph.solidAlternatives, Node.alternatives, (h.node path _ hat).1.oneOf]
  refine @Schema.length_filter_isSolid_le (fun i => root.number (path ++ [.oneOf i]))
    (fun alternative => !d.graph.isNullable .jsonSchema alternative) k.oneOf 0
    fun i schema hget hsolid => ?_
  rw [Nat.zero_add, h.isNullable_of_isSolid (hat.concat (Keywords.Child.oneOf hget).mem_children)
    (helementary schema (List.mem_of_getElem? hget)) hsolid]
  rfl

end Represents

section

variable {text : String} {key : String} {id definition : SchemaId}
  (hload : ofJson text = .ok d ∨ ofYaml text = .ok d)
  (hregister : (d.register env { graph := d.graph }).1 = .ok ())
  (hentry : (key, id) ∈ d.definitions) (hactual : d.graph.actual id = definition)
  (hend : (d.graph.node definition).reference = none)
  (hdef : d.graph.isDefinitionType env.resolver.inlineNamedAny definition)

include hload hregister hentry hactual hend hdef

lemma registered_prepares_actual :
    ∃ t target t' name, Run env { graph := d.graph } t ∧ t.prepare definition = (target, t') ∧
      Run env t t' ∧ Run env t' (d.registered env) ∧
      (d.registered env).nameOf? (t'.graph.carrier target) = some name := by
  subst hactual
  obtain ⟨t, target, t', name, hfirst, hprepare, hrest⟩ :=
    registered_prepares hload hregister hentry hdef
  rw [show t.graph.actual id = d.graph.actual id from hfirst.grows.actual_of_ended hend] at hprepare
  exact ⟨t, target, t', name, hfirst, hprepare, hrest⟩

lemma wrapper?_registered (hlater : Run env (d.registered env) s) :
    s.wrapper? definition = (d.registered env).wrapper? definition := by
  obtain ⟨_, _, t, _, _, hprepare, _, hrest, _⟩ :=
    registered_prepares_actual hload hregister hentry hactual hend hdef
  rw [hrest.wrapper?_prepared hprepare, Run.wrapper?_prepared (hrest.trans hlater) hprepare]

lemma nameOf?_registered (hcarrier : ∀ t, Run env { graph := d.graph } t →
      t.graph.carrier definition = definition) :
    definition ∈ (d.registered env).prepared ∧
      ∃ name, (d.registered env).nameOf? ((d.registered env).target definition) = some name := by
  obtain ⟨t, target, t', name, hfirst, hprepare, hprepares, hrest, hname⟩ :=
    registered_prepares_actual hload hregister hentry hactual hend hdef
  have hbegin : Run env { graph := d.graph } t' := hfirst.trans hprepares
  have htarget : (d.registered env).target definition = target := by
    rw [Session.target, hrest.wrapper?_prepared hprepare, ← Session.target,
      target_prepared hprepare]
  rw [htarget]
  rcases prepare_settles hprepare with hwrapper | ⟨rfl, hunwrapped⟩
  · rw [(hbegin.plainWrappers (.start d.graph)).carrier hwrapper] at hname
    exact ⟨hrest.prepared_subset (hbegin.wrapped_prepared hwrapper), name, hname⟩
  · rw [hcarrier t' hbegin] at hname
    exact ⟨hrest.prepared_subset hunwrapped.1, name, hname⟩

end

lemma Represents.isChoice_at (h : d.Represents root) {alternatives : List (Option Schema)}
    (hat : (Schema.inline root).At path (.inline { oneOf := alternatives }))
    (hsolid : 1 < (alternatives.filter (·.any Schema.isSolid)).length)
    (helementary : ∀ schema, some schema ∈ alternatives →
      schema.Elementary root d inlineNamedAny) : d.graph.IsChoice (root.number path) := by
  have hnode := (h.node path _ hat).1
  constructor
  · exact hnode.reference
  · exact hnode.types
  · exact hnode.enumeration
  · exact hsolid.trans_le (h.solidAlternatives_le hat helementary)

lemma Represents.at_definition {before after : List (Place × Schema)} {place : Place}
    (hsplit : root.definitionPlaces = before ++ (place, schema) :: after) :
    (Schema.inline root).At [place] schema := by
  refine .child ?_ (.here _)
  simp [Keywords.children, hsplit]

lemma path_ne_nil {before after : List (Place × Schema)} {place : Place}
    (hsplit : root.definitionPlaces = before ++ (place, schema) :: after)
    (hat : (Schema.inline root).At path (.inline k)) (hk : k.definitionPlaces = []) :
    path ≠ [] := by
  rintro rfl
  cases hat
  rw [hk] at hsplit
  simp at hsplit

section

variable (h : d.Represents root) (href : ∀ id, (d.graph.node id).reference.isSome →
    (d.graph.node id).oneOf = []) {rank : SchemaId → ℕ} (hrank : d.graph.Ranked rank)
  {definition : Path}

include h href hrank

/-- A declared choice spells out the same choice in place, whenever that is resolved. -/
lemma choice_spelled {base : Session} (hbase : Run env { graph := d.graph } base)
    (hlater : Run env base s)
    {alternatives : List (Option Schema)}
    (hat : (Schema.inline root).At definition (.inline { oneOf := alternatives }))
    (hplace : (Schema.inline root).At path (.inline { oneOf := alternatives }))
    (hsolid : 1 < (alternatives.filter (·.any Schema.isSolid)).length)
    (helementary : ∀ schema, some schema ∈ alternatives →
      schema.Elementary root d env.resolver.inlineNamedAny)
    (hwrapper : ∀ id, some id ∈ (d.graph.node (root.number definition)).oneOf →
      d.graph.isDefinitionType env.resolver.inlineNamedAny (d.graph.actual id) →
        s.wrapper? (d.graph.actual id) = base.wrapper? (d.graph.actual id))
    (hprepared : root.number definition ∈ base.prepared)
    (hunprepared : root.number path ∉ s.prepared)
    {name : String} {decl : Declaration}
    (hbetween : DeclaredBetween env base s (base.target (root.number definition), name) decl)
    (nullable : Bool) (hint : Option String) :
    (∃ e, SessionM.resolve (root.number path) nullable hint env s = (.ok e, s)) ∧
      ∀ t t' e, Run env base t →
        SessionM.resolve (root.number path) nullable hint env t = (.ok e, t') →
        Run env t' s → decl.SpellsOut env e := by
  have hwhole : Run env { graph := d.graph } s := hbase.trans hlater
  have hchoice := h.isChoice_at hplace hsolid helementary
  have hplaced {id : SchemaId} (hid : some id ∈ (d.graph.node (root.number path)).oneOf) :
      d.graph.Elementary env.resolver.inlineNamedAny id :=
    h.elementary_alternatives hplace helementary hid
  have hwrapper' := h.wrapper_twin hat hplace helementary hwrapper
  obtain ⟨found, hshape, hfound⟩ := Run.declared_variants h.closed hrank hbase
    (h.number_lt _ _ hat) (h.isChoice_at hat hsolid helementary) hprepared hbetween
  have hmem (other : SchemaId) :
      some other ∈ (d.graph.node (root.number definition)).alternatives.map some ↔
        some other ∈ (d.graph.node (root.number definition)).oneOf := by
    simp [Node.alternatives]
  have hvariant {e : TypeExpr} (he : e ≠ .null) :=
    mem_results_iff href h.closed hrank hbase resolve_bare hfound
      (fun other hother => h.elementary_alternatives hat helementary ((hmem other).mp hother))
      (fun other hother => hwrapper other ((hmem other).mp hother)) he
  simp only [hmem] at hvariant
  constructor
  · refine resolve_choice_still href h.closed hrank hchoice (fun _ => hplaced) hwhole hunprepared
      (fun other hother => ?_) nullable hint
    obtain ⟨schema, twin, below, below', hschema, hbelow, rfl, hbelow', rfl, htwin⟩ :=
      h.twin_alternative hplace hat hother
    obtain ⟨e, _, he⟩ := Except.exists_of_forall₂_left hfound ((hmem _).mpr htwin)
    have hspelling := he.spelling href h.closed hrank hbase resolve_bare
      (h.elementary_alternatives hat helementary htwin) (hwrapper _ htwin)
    exact ⟨e, h.spelling_twin hbelow' hbelow (helementary schema hschema) hspelling⟩
  · intro t t' e hfirst hresolve hlast
    refine ⟨found, hshape, fun variant hnull hkeyword => ?_⟩
    have hrun : Run env t t' :=
      ((resolve_spells (root.number path) nullable hint).result hresolve).1
    have hprepared' : root.number path ∉ t.prepared := fun hmem =>
      hunprepared (Run.prepared_subset (hrun.trans hlast) hmem)
    rw [hvariant hnull, mem_members_iff href h.closed hrank hchoice (fun _ => hplaced) hbase
      hwrapper' hfirst hlast hprepared' hresolve hnull hkeyword]
    exact ⟨h.spellings_sub hat hplace helementary, h.spellings_sub hplace hat helementary⟩

end

lemma Represents.isDefinitionType_composed (h : d.Represents root)
    (hat : (Schema.inline root).At path (.inline k))
    (hk : Keywords.Composes root d inlineNamedAny k) :
    d.graph.isDefinitionType inlineNamedAny (root.number path) := by
  have hnode := (h.node path _ hat).1
  have hany : (d.graph.node (root.number path)).isAny = false := by
    cases hk with
    | oneOf alternatives hsolid helementary =>
      have hchoice := h.isChoice_at hat hsolid helementary
      simp [Node.isAny, hchoice.oneOf_ne_nil]
    | anyOf alternatives hlength =>
      have hne : (d.graph.node (root.number path)).anyOf ≠ [] := by
        rw [hnode.anyOf, ← List.length_pos_iff, List.length_map, List.length_range]
        exact Nat.zero_lt_of_lt hlength
      simp [Node.isAny, hne]
  have htypes : (d.graph.node (root.number path)).types = [] := by
    rw [hnode.types]
    cases hk <;> rfl
  simp [Graph.isDefinitionType, hany, Node.isTuple, Node.isDictionary, Node.isArray, Node.isObject,
    Node.hasType, Node.hasNoType, htypes]

lemma Represents.carrier_composed (h : d.Represents root)
    (hat : (Schema.inline root).At path (.inline k))
    (hk : Keywords.Composes root d inlineNamedAny k) (hrun : Run env { graph := d.graph } t) :
    t.graph.carrier (root.number path) = root.number path := by
  have hnode := (h.node path _ hat).1
  obtain ⟨rank, hrank⟩ := h.exists_ranked
  have hend : (t.graph.node (root.number path)).reference = none := by
    rw [(hrun.grows _).reference, hnode.reference]
  cases hk with
  | oneOf alternatives hsolid helementary =>
    have hchoice := h.isChoice_at hat hsolid helementary
    rw [Graph.carrier, Graph.removeNullability_of_solid, Graph.actual_of_reference hend]
    rw [Graph.solidAlternatives_expands hrun.grows hrun.expands hrank hrun.size_le]
    exact hchoice.solid
  | anyOf alternatives hlength =>
    have hone : (t.graph.node (root.number path)).oneOf = [] := by
      rw [(hrun.grows _).oneOf, hnode.oneOf]
      rfl
    rw [Graph.carrier_of_oneOf hone, Graph.actual_of_reference hend]

lemma Represents.declared_anyOf (h : d.Represents root) {base : Session}
    (hbase : Run env { graph := d.graph } base) {alternatives : List Schema}
    (hat : (Schema.inline root).At path (.inline { anyOf := alternatives }))
    (hlength : 1 < alternatives.length) {name : String} {decl : Declaration}
    (hbetween : DeclaredBetween env base s (base.target (root.number path), name) decl) :
    ∃ parents fields indexed, decl.shape = .interface parents fields indexed := by
  have hnode := (h.node path _ hat).1
  obtain ⟨rank, hrank⟩ := h.exists_ranked
  obtain ⟨u, v, hfirst, hdeclare, _⟩ := hbetween
  have hone : (d.graph.node (root.number path)).oneOf = [] := hnode.oneOf
  have htarget : base.target (root.number path) = root.number path :=
    (hbase.extends (.start h.closed)).target_of_oneOf (by rw [(hbase.grows _).oneOf, hone])
  have hbegin : Run env { graph := d.graph } u := hbase.trans hfirst
  obtain ⟨hs, hreshapes⟩ := hbegin.reshapes h.closed hrank
  have hmembers : (u.graph.node (root.number path)).enumeration = [] := by
    rcases hreshapes.members (root.number path) with hmembers | ⟨_, _, hsolid, _⟩
    · rw [hmembers, hnode.enumeration]
      rfl
    · exact absurd hone (Graph.oneOf_ne_nil_of_solid hsolid)
  have hany : (u.graph.node (root.number path)).anyOf ≠ [] := by
    rw [(hbegin.grows _).anyOf, hnode.anyOf, ← List.length_pos_iff, List.length_map,
      List.length_range]
    exact Nat.zero_lt_of_lt hlength
  have htypes : (u.graph.node (root.number path)).types = [] := by
    rw [(hbegin.grows _).types, hnode.types]
    rfl
  rw [htarget] at hdeclare
  exact ((declare_anyOf (hs.wrapped?_eq_none (h.number_lt _ _ hat)) htypes hmembers hany
    name).result hdeclare).2

/-- What a definition of the root is declared as when its keywords only compose. -/
theorem composition_declared {text : String}
    (hparsed : parseJson text = .ok root ∨ parseYaml text = .ok root)
    (hlower : ofKeywords root = .ok d) {files : List GeneratedFile}
    (hemit : d.emit env { graph := d.graph } = (.ok files, s)) :
    ∃ ds, files = [⟨"types.ts", fileText env.typescript.exported ds⟩] ∧
      List.Forall₂ (DeclaredBetween env (d.registered env) s) s.types ds ∧
      ∀ k before group name after, Keywords.Composes root d env.resolver.inlineNamedAny k →
        root.definitionPlaces = before ++ (.definition group name, .inline k) :: after →
        (∀ entry ∈ before, entry.1.definitionName? ≠ some name) →
        let definition := root.number [.definition group name]
        (∀ id ∈ (d.graph.node definition).alternatives,
          d.graph.isDefinitionType env.resolver.inlineNamedAny (d.graph.actual id) →
            (∃ entry ∈ d.definitions, d.graph.actual entry.2 = d.graph.actual id) ∨
              s.wrapper? (d.graph.actual id) =
                (d.registered env).wrapper? (d.graph.actual id)) →
        ∃ title decl, s.nameOf? (s.target definition) = some title ∧ decl ∈ ds ∧
          decl.name = title ∧
          DeclaredBetween env (d.registered env) s (s.target definition, title) decl ∧
          ((∃ variants, decl.shape = .union variants) ↔ k.anyOf = []) ∧
          (k.anyOf = [] → ∀ path, (Schema.inline root).At path (.inline k) →
            path.isDefinition = false → ∀ nullable hint,
              (∃ e, SessionM.resolve (root.number path) nullable hint env s = (.ok e, s)) ∧
              ∀ t t' e, Run env (d.registered env) t →
                SessionM.resolve (root.number path) nullable hint env t = (.ok e, t') →
                Run env t' s → decl.SpellsOut env e) := by
  obtain ⟨hload, hrepresents⟩ := load_of_parsed hparsed hlower
  have href := oneOf_of_reference hload
  obtain ⟨rank, hrank⟩ := hrepresents.exists_ranked
  obtain ⟨_, ds, hfiles, hds⟩ := d.emit_between.result hemit
  obtain ⟨hregister, hlater⟩ := emit_registered hemit
  have hbase : Run env { graph := d.graph } (d.registered env) := d.register_leads.1
  refine ⟨ds, hfiles, hds, ?_⟩
  intro k before group name after hcomposes hsplit hfirst definition hwrapper
  have hat := Represents.at_definition hsplit
  have hentry := hrepresents.definition_listed hsplit hfirst
  have hend := (hrepresents.node _ _ hat).1.reference
  have hself : d.graph.actual definition = definition := Graph.actual_of_reference hend
  have hdef := hrepresents.isDefinitionType_composed hat hcomposes
  obtain ⟨hprepared, title, htitle⟩ := nameOf?_registered hload hregister hentry hself hend hdef
    fun t hrun => hrepresents.carrier_composed hat hcomposes hrun
  have hsettled := wrapper?_registered hload hregister hentry hself hend hdef hlater
  have htarget : s.target definition = (d.registered env).target definition := by
    rw [Session.target, hsettled, Session.target]
  rw [htarget]
  obtain ⟨title, hnamed, decl, hdecl, hname, hbetween⟩ :=
    declares_of_named hds (hlater.nameOf? htitle)
  refine ⟨title, decl, hnamed, hdecl, hname, hbetween, ?_⟩
  cases hcomposes with
  | anyOf alternatives hlength helementary =>
    obtain ⟨parents, fields, indexed, hshape⟩ := hrepresents.declared_anyOf hbase hat hlength hbetween
    have hne : alternatives ≠ [] := List.length_pos_iff.mp (Nat.zero_lt_of_lt hlength)
    exact ⟨by simp [hshape, hne], fun hnil => absurd hnil hne⟩
  | oneOf alternatives hsolid helementary =>
    obtain ⟨found, hshape, _⟩ := Run.declared_variants hrepresents.closed hrank hbase
      (hrepresents.number_lt _ _ hat) (hrepresents.isChoice_at hat hsolid helementary) hprepared
      hbetween
    refine ⟨iff_of_true ⟨found, hshape⟩ rfl, fun _ path hplace hpath => ?_⟩
    have hunprepared := hrepresents.unprepared hemit hplace (path_ne_nil hsplit hplace rfl) hpath
    refine choice_spelled hrepresents href hrank hbase hlater hat hplace hsolid helementary
      (fun id hid hdef => ?_) hprepared hunprepared hbetween
    rcases hwrapper id (Graph.mem_alternatives.mpr hid) hdef with
      ⟨entry, hentry, hactual⟩ | hkept
    · have hended := (hrepresents.elementary_alternatives hat helementary hid).ended
      exact wrapper?_registered hload hregister hentry hactual hended hdef hlater
    · exact hkept

/-- The same two references as a choice and under `anyOf`, both as definitions and in place. -/
def pairsText : String :=
  "\x7b\"$defs\":\x7b\"A\":\x7b\x7d,\"B\":\x7b\x7d," ++
    "\"U\":\x7b\"oneOf\":[\x7b\"$ref\":\"#/$defs/A\"\x7d,\x7b\"$ref\":\"#/$defs/B\"\x7d]\x7d," ++
    "\"V\":\x7b\"anyOf\":[\x7b\"$ref\":\"#/$defs/A\"\x7d,\x7b\"$ref\":\"#/$defs/B\"\x7d]\x7d\x7d," ++
    "\"properties\":\x7b" ++
    "\"u\":\x7b\"oneOf\":[\x7b\"$ref\":\"#/$defs/A\"\x7d,\x7b\"$ref\":\"#/$defs/B\"\x7d]\x7d," ++
    "\"v\":\x7b\"anyOf\":[\x7b\"$ref\":\"#/$defs/A\"\x7d,\x7b\"$ref\":\"#/$defs/B\"\x7d]\x7d\x7d\x7d"

def pairsFile : String :=
  "// Generated by jstr. Do not edit.\n\nexport type A = any;\n\nexport type B = any;\n\n" ++
    "export type U = A | B;\n\nexport interface V \x7b\n\x7d\n\n" ++
    "export interface Root \x7b\n  u?: A | B;\n  v?: A | B;\n\x7d\n"

/-- The targets of two references of which there is a choice, where there is nothing else. -/
def choiceTargets? : Schema → Option (String × String)
  | .inline ⟨none, none, none, none, none, none, [], [], none, [], none, none, [],
      [some (.ref first), some (.ref second)], [], none, [], [], [], none, []⟩ =>
    some (first, second)
  | _ => none

lemma choiceTargets?_eq_some {first second : String}
    (h : choiceTargets? schema = some (first, second)) :
    schema = .inline { oneOf := [some (.ref first), some (.ref second)] } := by
  unfold choiceTargets? at h
  split at h
  · cases h
    rfl
  · cases h

/-- The end of a generation, in which the second pair is spelled as a union in place. -/
def PairsEmitted (d : Document) : Prop :=
  let result := d.emit (.ofSettings {}) { graph := d.graph }
  (∃ files, result.1 = .ok files ∧ files.map (·.content) = [pairsFile]) ∧
    ∃ e, (SessionM.resolve 14 false none (.ofSettings {}) result.2).1 = .ok e ∧
      e.unionMembers = [.ident "A", .ident "B"]

instance (d : Document) : Decidable d.PairsEmitted := inferInstanceAs (Decidable (_ ∧ _))

/-- The first pair stands among the definitions and in place, and what it refers to gets a type. -/
def PairsPlaced (root : Keywords Schema) (d : Document) : Prop :=
  root.definitionPlaces.map (fun child => (child.1, choiceTargets? child.2)) =
      [(.definition .defs "A", none), (.definition .defs "B", none),
        (.definition .defs "U", some ("#/$defs/A", "#/$defs/B")), (.definition .defs "V", none)] ∧
    root.properties.map (fun entry => (entry.1, choiceTargets? entry.2)) =
      [("u", some ("#/$defs/A", "#/$defs/B")), ("v", none)] ∧
    root.number [.definition .defs "A"] = 1 ∧ root.number [.definition .defs "B"] = 2 ∧
    root.number [.definition .defs "U"] = 3 ∧
    (∀ id ∈ [1, 2], d.graph.actual id = id ∧ (d.graph.node id).reference = none ∧
      d.graph.isDefinitionType false id) ∧
    ∀ id ∈ (d.graph.node 3).alternatives, ∃ entry ∈ d.definitions,
      d.graph.actual entry.2 = d.graph.actual id

instance (root : Keywords Schema) (d : Document) : Decidable (PairsPlaced root d) :=
  inferInstanceAs (Decidable (_ ∧ _ ∧ _ ∧ _ ∧ _ ∧ _))

lemma pairs_loaded :
    ∃ root, parseJson pairsText = .ok root ∧ ∃ d, ofKeywords root = .ok d ∧
      root.number [.definition .defs "V"] = 4 ∧ root.number [.property "v"] = 14 ∧
      d.PairsEmitted ∧ PairsPlaced root d := by
  decide +kernel

def pair : Keywords Schema where
  oneOf := [some (.ref "#/$defs/A"), some (.ref "#/$defs/B")]

lemma PairsPlaced.split (h : PairsPlaced root d) :
    ∃ before after,
      root.definitionPlaces = before ++ (.definition .defs "U", .inline pair) :: after ∧
      before.map (·.1) = [.definition .defs "A", .definition .defs "B"] := by
  obtain ⟨⟨_, a⟩, _, hplaces, ha, hrest⟩ := List.map_eq_cons_iff.mp h.1
  obtain ⟨⟨_, b⟩, _, rfl, hb, hrest⟩ := List.map_eq_cons_iff.mp hrest
  obtain ⟨⟨_, u⟩, after, rfl, hu, _⟩ := List.map_eq_cons_iff.mp hrest
  obtain ⟨rfl, _⟩ := Prod.mk.inj ha
  obtain ⟨rfl, _⟩ := Prod.mk.inj hb
  obtain ⟨rfl, hu⟩ := Prod.mk.inj hu
  obtain rfl : u = .inline pair := choiceTargets?_eq_some hu
  exact ⟨[(_, a), (_, b)], after, hplaces, rfl⟩

lemma PairsPlaced.at_property (h : PairsPlaced root d) :
    (Schema.inline root).At [.property "u"] (.inline pair) := by
  obtain ⟨⟨_, u⟩, rest, hproperties, hu, _⟩ := List.map_eq_cons_iff.mp h.2.1
  obtain ⟨rfl, hu⟩ := Prod.mk.inj hu
  obtain rfl : u = .inline pair := choiceTargets?_eq_some hu
  exact .child (Keywords.Child.property (by simp [hproperties])).mem_children (.here _)

lemma PairsPlaced.composes (h : PairsPlaced root d) : Keywords.Composes root d false pair := by
  obtain ⟨before, after, hplaces, hbefore⟩ := h.split
  obtain ⟨_, _, hfirst, hsecond, _, hnodes, _⟩ := h
  have hmany : 1 < (pair.oneOf.filter (·.any Schema.isSolid)).length := by decide
  have helementary {name target : String} {id : SchemaId} (hname : name ∈ ["A", "B"])
      (htext : Path.text [.definition .defs name] = Pointer.dropTrailingSlashes target)
      (htarget : target.toList.head? = some '#')
      (hid : root.number [.definition .defs name] = id) (hmem : id ∈ [1, 2]) :
      (Schema.ref target).Elementary root d false := by
    obtain ⟨hself, hend, hdef⟩ := hnodes id hmem
    have hmem : .definition .defs name ∈ before.map (·.1) := by
      rw [hbefore]
      simpa using hname
    obtain ⟨child, hchild, hplace⟩ := List.mem_map.mp hmem
    obtain ⟨_, _, rfl⟩ := List.append_of_mem hchild
    rw [List.append_assoc] at hplaces
    have hat := Represents.at_definition hplaces
    rw [hplace] at hat
    refine .ref target id ⟨_, _, htarget, htext, hat, .inr rfl, hid.symm⟩ ?_ (.inl ?_)
    · rwa [hself]
    · rwa [hself]
  refine .oneOf pair.oneOf hmany fun schema hschema => ?_
  rcases List.mem_cons.mp hschema with heq | hschema
  · obtain rfl := Option.some.inj heq
    exact helementary (by simp) (by rfl) (by rfl) hfirst (by simp)
  · obtain rfl := Option.some.inj (List.mem_singleton.mp hschema)
    exact helementary (by simp) (by rfl) (by rfl) hsecond (by simp)

theorem pair_composition_declared :
    ∃ root d files s, (parseJson pairsText = .ok root ∨ parseYaml pairsText = .ok root) ∧
      ofKeywords root = .ok d ∧ d.emit (.ofSettings {}) { graph := d.graph } = (.ok files, s) ∧
      Keywords.Composes root d false pair ∧
      (Schema.inline root).At [.property "u"] (.inline pair) ∧
      ∃ ds title decl, files = [⟨"types.ts", fileText true ds⟩] ∧
        s.nameOf? (s.target (root.number [.definition .defs "U"])) = some title ∧ decl ∈ ds ∧
        decl.name = title ∧ (∃ variants, decl.shape = .union variants) ∧
        ∃ e, SessionM.resolve (root.number [.property "u"]) false none (.ofSettings {}) s =
          (.ok e, s) ∧ decl.SpellsOut (.ofSettings {}) e := by
  obtain ⟨root, hroot, d, hlower, _, _, ⟨⟨files, hfiles, _⟩, _⟩, hplaced⟩ := pairs_loaded
  have hemit : d.emit (.ofSettings {}) { graph := d.graph } =
      (.ok files, (d.emit (.ofSettings {}) { graph := d.graph }).2) := Prod.ext hfiles rfl
  obtain ⟨ds, htext, _, hdeclared⟩ := composition_declared (.inl hroot) hlower hemit
  obtain ⟨before, after, hsplit, hbefore⟩ := hplaced.split
  have hfirst : ∀ entry ∈ before, entry.1.definitionName? ≠ some "U" := by
    intro entry hentry
    have hplace := List.mem_map_of_mem (f := (·.1)) hentry
    rw [hbefore] at hplace
    revert hplace
    generalize entry.1 = place
    simp only [List.mem_cons, List.not_mem_nil, or_false]
    rintro (rfl | rfl) <;> simp [Place.definitionName?]
  obtain ⟨title, decl, hname, hdecl, htitle, _, hunion, hspells⟩ :=
    hdeclared pair before .defs "U" after hplaced.composes hsplit hfirst fun id hid _ => .inl <| by
      have hnumber := hplaced.2.2.2.2.1
      exact hplaced.2.2.2.2.2.2 id (by rwa [hnumber] at hid)
  obtain ⟨⟨e, he⟩, hall⟩ := hspells rfl _ hplaced.at_property rfl false none
  refine ⟨root, d, files, _, .inl hroot, hlower, hemit, hplaced.composes, hplaced.at_property, ds,
    title, decl, htext, hname, hdecl, htitle, hunion.mpr rfl, e, he, ?_⟩
  exact hall _ _ e (emit_registered hemit).2 he .refl

/-- Under `anyOf` a pair is a union in place, but an interface without fields as a definition. -/
theorem pairs_declared_apart :
    ∃ root, parseJson pairsText = .ok root ∧ ∃ d, ofKeywords root = .ok d ∧
      root.number [.definition .defs "V"] = 4 ∧ root.number [.property "v"] = 14 ∧
      (∃ files, (d.emit (.ofSettings {}) { graph := d.graph }).1 = .ok files ∧
        files.map (·.content) = [pairsFile]) ∧
      ∃ e, (SessionM.resolve 14 false none (.ofSettings {})
          (d.emit (.ofSettings {}) { graph := d.graph }).2).1 = .ok e ∧
        e.unionMembers = [.ident "A", .ident "B"] := by
  obtain ⟨root, hroot, d, hlower, hdefinition, hplace, ⟨hfiles, hresolved⟩, _⟩ := pairs_loaded
  exact ⟨root, hroot, d, hlower, hdefinition, hplace, hfiles, hresolved⟩

end Document

end SchemaTypes
