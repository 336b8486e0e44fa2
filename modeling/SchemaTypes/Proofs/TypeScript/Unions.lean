import SchemaTypes.Proofs.TypeScript.Answers
import SchemaTypes.Proofs.TypeScript.Choices

/-! Unions of elementary schemas, as they are declared for a definition and as they are spelled in
place. -/

namespace SchemaTypes

open Session SessionM

namespace TypeExpr

variable {e : TypeExpr} {es : List TypeExpr}

lemma unionMembers_join
    (hflat : ∀ e' ∈ es, ∀ member ∈ e'.unionMembers, member.unionMembers = [member]) :
    (join es).unionMembers = es.flatMap unionMembers := by
  unfold join
  split
  · rename_i only heq
    obtain ⟨e', he', honly⟩ := List.mem_flatMap.mp (heq ▸ List.mem_singleton_self only)
    rw [heq, hflat e' he' only honly]
  · rfl

lemma mem_unionMembers_join
    (hflat : ∀ e' ∈ es, ∀ member ∈ e'.unionMembers, member.unionMembers = [member]) :
    e ∈ (join es).unionMembers ↔ ∃ e' ∈ es, e ∈ e'.unionMembers := by
  rw [unionMembers_join hflat, List.mem_flatMap]

lemma mem_unionMembers_join_idents (hes : ∀ e' ∈ es, ∃ name, e' = .ident name) :
    e ∈ (join es).unionMembers ↔ e ∈ es := by
  have hself : ∀ e' ∈ es, e'.unionMembers = [e'] := by
    rintro _ he'
    obtain ⟨name, rfl⟩ := hes _ he'
    rfl
  have hflat : ∀ e' ∈ es, ∀ member ∈ e'.unionMembers, member.unionMembers = [member] := by
    intro e' he' member hmember
    rw [hself e' he', List.mem_singleton] at hmember
    rw [hmember, hself e' he']
  rw [mem_unionMembers_join hflat]
  constructor
  · rintro ⟨e', he', hmember⟩
    rw [hself e' he', List.mem_singleton] at hmember
    rwa [hmember]
  · exact fun he => ⟨e, he, by rw [hself e he]; exact List.mem_singleton_self e⟩

lemma mem_unionMembers_nullable {null : TypeExpr} (hnull : ∃ name, null = .ident name)
    (hne : e ≠ null) {e' : TypeExpr} :
    e ∈ (join [e', null]).unionMembers ↔ e ∈ e'.unionMembers := by
  obtain ⟨name, rfl⟩ := hnull
  have hflat : [e', .ident name].flatMap unionMembers = e'.unionMembers ++ [.ident name] := by
    simp [unionMembers]
  unfold join
  rw [hflat]
  split
  · rename_i only heq
    obtain ⟨hnil, hlast⟩ := List.append_eq_singleton_iff.mp heq |>.resolve_right (by simp)
    simp_all [unionMembers]
  · simp [unionMembers, hne]

end TypeExpr

/-- A schema with several alternatives and neither a type nor members of its own. -/
structure Graph.IsChoice (g : Graph) (id : SchemaId) : Prop where
  reference : (g.node id).reference = none
  types : (g.node id).types = []
  enumeration : (g.node id).enumeration = []
  solid : 1 < (g.solidAlternatives id).length

lemma Graph.IsChoice.oneOf_ne_nil {g : Graph} {id : SchemaId} (h : g.IsChoice id) :
    (g.node id).oneOf ≠ [] := oneOf_ne_nil_of_solid h.solid

lemma Session.Run.unprepared {g : Graph} {env : Environment} {s : Session} {id : SchemaId}
    {rank : SchemaId → ℕ} (hrun : Run env { graph := g } s) (hclosed : g.Closed)
    (hrank : g.Ranked rank) (hid : id ∉ s.prepared) :
    (s.graph.node id).enumeration = (g.node id).enumeration ∧ s.wrapper? id = none := by
  constructor
  · exact ((hrun.reshapes hclosed hrank).2.members id).resolve_right fun hmore => hid hmore.1
  · cases hwrapper : s.wrapper? id with
    | none => rfl
    | some wrapper => exact absurd (hrun.wrapped_prepared hwrapper) hid

lemma Graph.IsChoice.unprepared {g : Graph} {env : Environment} {s : Session} {id : SchemaId}
    {rank : SchemaId → ℕ} (h : g.IsChoice id) (hclosed : g.Closed) (hrank : g.Ranked rank)
    (hrun : Run env { graph := g } s) (hid : id ∉ s.prepared) :
    s.graph.IsChoice id ∧ s.wrapper? id = none := by
  obtain ⟨hmembers, hwrapper⟩ := hrun.unprepared hclosed hrank hid
  refine ⟨?_, hwrapper⟩
  constructor
  · rw [(hrun.grows id).reference, h.reference]
  · rw [(hrun.grows id).types, h.types]
  · rw [hmembers, h.enumeration]
  · rw [solidAlternatives_expands hrun.grows hrun.expands hrank hrun.size_le]
    exact h.solid

lemma Session.Run.wrapper?_between {env : Environment} {s t t' : Session} {id : SchemaId}
    (hfirst : Run env s t) (hlast : Run env t t') (h : t'.wrapper? id = s.wrapper? id) :
    t.wrapper? id = s.wrapper? id := by
  cases hs : s.wrapper? id with
  | some wrapper => exact hfirst.wrapper? hs
  | none =>
    cases ht : t.wrapper? id with
    | none => rfl
    | some wrapper =>
      rw [hlast.wrapper? ht, hs] at h
      cases h

namespace SessionM

variable {env : Environment} {s t : Session} {resolver : Resolver} {e : TypeExpr}

/-- Somewhere on the way between the sessions the alternative is resolved to the expression. -/
def ResolvedBetween (env : Environment) (resolver : Resolver) (s t : Session) :
    Option SchemaId → TypeExpr → Prop
  | none, e => e = .null
  | some id, e => ∃ u v, Run env s u ∧ resolver id false none env u = (.ok e, v) ∧ Run env v t

lemma ResolvedBetween.mono {s' t' : Session} {alternative : Option SchemaId}
    (h : ResolvedBetween env resolver s t alternative e) (hs : Run env s' s) (ht : Run env t t') :
    ResolvedBetween env resolver s' t' alternative e := by
  cases alternative with
  | none => exact h
  | some id =>
    obtain ⟨u, v, hu, hresolved, hv⟩ := h
    exact ⟨u, v, hs.trans hu, hresolved, hv.trans ht⟩

lemma resolveVariants_between (ids : List SchemaId) :
    Leads env s (resolveVariants ids) fun es t =>
      List.Forall₂ (ResolvedBetween env SessionM.resolve s t) (ids.map some) es := by
  induction ids generalizing s with
  | nil => exact .pure .nil
  | cons id rest ih =>
    refine ((resolve_spells id false none).equation).bind fun e t hrun he => ?_
    refine ih.bind fun es u hrun' hes => .pure ?_
    exact .cons ⟨s, t, .refl, he, hrun'⟩ (hes.imp fun _ _ h => h.mono hrun .refl)

lemma AnsweredInPlace.between {alternative : Option SchemaId}
    (h : AnsweredInPlace env s t (askAlternative resolver alternative) e) :
    ResolvedBetween env resolver s t alternative e := by
  obtain ⟨u, v, hu, _, he, hv⟩ := h
  cases alternative with
  | none =>
    cases he
    rfl
  | some id => exact ⟨u, v, hu, he, hv⟩

lemma resolveAlternatives_still {alternatives : List (Option SchemaId)} (found : List TypeExpr)
    (h : ∀ id, some id ∈ alternatives → ∃ e, resolver id false none env s = (.ok e, s)) :
    ∃ es, resolveAlternatives resolver found alternatives env s = (.ok es, s) := by
  induction alternatives generalizing found with
  | nil => exact ⟨found, rfl⟩
  | cons alternative rest ih =>
    have hrest : ∀ id, some id ∈ rest → ∃ e, resolver id false none env s = (.ok e, s) :=
      fun id hid => h id (List.mem_cons_of_mem _ hid)
    cases alternative with
    | none =>
      rw [resolveAlternatives, bind_ok (pure_apply _)]
      exact ih _ hrest
    | some id =>
      obtain ⟨e, he⟩ := h id List.mem_cons_self
      rw [resolveAlternatives, bind_ok he]
      exact ih _ hrest

lemma spellNullable_members {nullable : Bool} {e' : TypeExpr}
    (h : spellNullable nullable e env s = (.ok e', t)) :
    t = s ∧ ∀ v, v ≠ .nullKeyword env.typescript.nullKeyword →
      (v ∈ e'.unionMembers ↔ v ∈ e.unionMembers) := by
  rw [spellNullable, bind_ok read_apply] at h
  split at h
  · cases h
    exact ⟨rfl, fun _ _ => Iff.rfl⟩
  · cases h
    exact ⟨rfl, fun v hv => TypeExpr.mem_unionMembers_nullable ⟨_, rfl⟩ hv⟩

lemma resolve_choice {id : SchemaId} (h : s.graph.IsChoice id) (hwrapper : s.wrapper? id = none)
    (nullable : Bool) (hint : Option String) :
    ∃ depth, SessionM.resolve id nullable hint env s =
      (spellUnion (resolveWithin (depth + 1)) (s.graph.node id).oneOf >>= spellNullable nullable)
        env s := by
  obtain ⟨depth, hdepth⟩ : ∃ depth, (s.graph.size + 2) * (s.graph.size + 2) = depth + 2 := by
    refine ⟨(s.graph.size + 2) * (s.graph.size + 2) - 2, ?_⟩
    have hle : 2 * 1 ≤ (s.graph.size + 2) * (s.graph.size + 2) :=
      Nat.mul_le_mul (by omega) (by omega)
    omega
  have hone := h.oneOf_ne_nil
  obtain ⟨href, hno, hmembers, hsolid⟩ := h
  have hself : s.graph.actual id = id := Graph.actual_of_reference href
  have hany : (s.graph.node id).isAny = false := by simp [Node.isAny, hone]
  have hdef : s.graph.isDefinitionType env.resolver.inlineNamedAny id = true := by
    simp [Graph.isDefinitionType, hany, Node.isTuple, Node.isDictionary, Node.isArray,
      Node.isObject, Node.hasType, Node.hasNoType, hno]
  have husage : s.graph.resolvable env.resolver.inlineNamedAny id = id := by
    simp only [Graph.resolvable, Graph.removeNullability_of_solid hsolid, hself, hdef, if_true]
  have hgenerates : s.graph.generatesType env.resolver.inlineNamedAny id = false := by
    simp [Graph.generatesType, husage, href, Node.isObject, Node.hasType, hno]
  have hplain : resolvePlain (resolveWithin (depth + 1)) (s.graph.node id) =
      spellUnion (resolveWithin (depth + 1)) (s.graph.node id).oneOf := by
    simp [resolvePlain, Node.primaryType, Node.hasType, hno, hone]
  have hbare : resolveBare (resolveWithin (depth + 1)) id hint env s =
      spellUnion (resolveWithin (depth + 1)) (s.graph.node id).oneOf env s := by
    rw [resolveBare, bind_ok get_apply, bind_ok read_apply]
    simp only [husage, hself, hwrapper, hany, hgenerates, Bool.false_and, Bool.false_eq_true,
      if_false, Node.isEnumeration, hmembers, Node.isArray, Node.isDictionary, Node.isObject,
      Node.hasType, hno, List.contains_nil, List.isEmpty_nil, Bool.not_true, Bool.or_self, hplain]
  refine ⟨depth, ?_⟩
  rw [SessionM.resolve, bind_ok graph_apply, hdepth, resolveWithin, bind_apply, bind_apply, hbare]

lemma declare_choice {id schema : SchemaId} (name : String)
    (h : s.wrapped? id = some schema ∨ s.wrapped? id = none ∧ id = schema ∧
      (s.graph.node id).enumeration.any Member.isSchema) :
    declare id name env s = declareChoice ⟨name, schema⟩ env s := by
  rw [declare, bind_ok get_apply]
  rcases h with hwrapped | ⟨hwrapped, rfl, hmembers⟩
  · simp only [hwrapped]
  · simp only [hwrapped, hmembers, if_true]

lemma declareChoice_shape {choice : Choice} {decl : Declaration}
    (h : declareChoice choice env s = (.ok decl, t)) :
    ∃ found, variants choice env s = (.ok found, t) ∧
      decl.shape = .union (if found.isEmpty then [.never] else found) := by
  obtain ⟨found, u, hvariants, hrest⟩ := bind_eq_ok h
  rw [bind_ok graph_apply] at hrest
  cases hrest
  exact ⟨found, hvariants, rfl⟩

lemma declareInterface_shape (id : SchemaId) (name : String) :
    Leads env s (declareInterface id name) fun decl _ =>
      ∃ parents fields indexed, decl.shape = .interface parents fields indexed := by
  refine .look graph_apply ?_
  refine (collectParts_leads _ (List.nil_subset _)).bind fun parts t _ _ => ?_
  exact (declareFields_leads _ _ _).bind fun fields u _ _ => .pure ⟨_, _, _, rfl⟩

/-- Alternatives that are listed under the other keyword do not make a definition a union. -/
lemma declare_anyOf {id : SchemaId} (hwrapped : s.wrapped? id = none)
    (hno : (s.graph.node id).types = []) (hmembers : (s.graph.node id).enumeration = [])
    (hany : (s.graph.node id).anyOf ≠ []) (name : String) :
    Leads env s (declare id name) fun decl _ =>
      ∃ parents fields indexed, decl.shape = .interface parents fields indexed := by
  have heq : declare id name env s = declareInterface id name env s := by
    have hnotAny : (s.graph.node id).isAny = false := by simp [Node.isAny, hany]
    rw [declare, bind_ok get_apply]
    simp only [hwrapped, hmembers, List.any_nil, Bool.false_eq_true, if_false, Node.isEnumeration,
      List.isEmpty_nil, Bool.not_true, Node.isArray, Node.isDictionary, Node.isObject,
      Node.hasType, hno, List.contains_nil, Bool.false_and, Bool.or_self, hnotAny]
  have hleads : Leads env s (declareInterface id name) _ := declareInterface_shape id name
  rwa [Leads, heq]

section

variable {g : Graph} {rank : SchemaId → ℕ} {alternatives : List (Option SchemaId)}
  {results : List TypeExpr}
  (href : ∀ id, (g.node id).reference.isSome → (g.node id).oneOf = [])
  (hclosed : g.Closed) (hrank : g.Ranked rank) (hrun : Run env { graph := g } s)
  (hbare : Bare resolver)

include href hclosed hrank hrun hbare

lemma ResolvedBetween.spelling {id : SchemaId}
    (h : ResolvedBetween env resolver s t (some id) e)
    (hid : g.Elementary env.resolver.inlineNamedAny id)
    (hwrapper : g.isDefinitionType env.resolver.inlineNamedAny (g.actual id) →
      t.wrapper? (g.actual id) = s.wrapper? (g.actual id)) :
    Spelling g env.resolver.inlineNamedAny t (g.actual id) e := by
  obtain ⟨u, v, hu, hresolved, hv⟩ := h
  obtain ⟨huv, hspelling⟩ :=
    spelling_of_resolved href hclosed hrank (hrun.trans hu) hid hbare hresolved
  have hbetween (hdef : g.isDefinitionType env.resolver.inlineNamedAny (g.actual id)) :
      u.wrapper? (g.actual id) = s.wrapper? (g.actual id) ∧
        v.wrapper? (g.actual id) = s.wrapper? (g.actual id) :=
    ⟨hu.wrapper?_between (huv.trans hv) (hwrapper hdef),
      Run.wrapper?_between (hu.trans huv) hv (hwrapper hdef)⟩
  refine (hspelling fun hdef => ?_).later hv fun hdef => ?_
  · rw [(hbetween hdef).1, (hbetween hdef).2]
  · rw [(hbetween hdef).2, hwrapper hdef]

lemma mem_results_iff
    (h : List.Forall₂ (ResolvedBetween env resolver s t) alternatives results)
    (helementary : ∀ id, some id ∈ alternatives → g.Elementary env.resolver.inlineNamedAny id)
    (hwrapper : ∀ id, some id ∈ alternatives →
      g.isDefinitionType env.resolver.inlineNamedAny (g.actual id) →
        t.wrapper? (g.actual id) = s.wrapper? (g.actual id))
    (hnull : e ≠ .null) :
    e ∈ results ↔ ∃ id, some id ∈ alternatives ∧
      Spelling g env.resolver.inlineNamedAny t (g.actual id) e := by
  have hspelling {id : SchemaId} {e : TypeExpr} (hid : some id ∈ alternatives)
      (he : ResolvedBetween env resolver s t (some id) e) :=
    he.spelling href hclosed hrank hrun hbare (helementary id hid) (hwrapper id hid)
  constructor
  · intro hmem
    obtain ⟨_ | id, hid, he⟩ := Except.exists_of_forall₂_right h hmem
    · exact absurd he hnull
    · exact ⟨id, hid, hspelling hid he⟩
  · rintro ⟨id, hid, he⟩
    obtain ⟨e', hmem, he'⟩ := Except.exists_of_forall₂_left h hid
    rwa [he.unique (hspelling hid he')]

end

section

variable {g : Graph} {rank : SchemaId → ℕ} {u v : Session} {id : SchemaId}
  (href : ∀ id, (g.node id).reference.isSome → (g.node id).oneOf = [])
  (hclosed : g.Closed) (hrank : g.Ranked rank) (hchoice : g.IsChoice id)
  (helementary : ∀ other, some other ∈ (g.node id).oneOf →
    g.Elementary env.resolver.inlineNamedAny other)

include href hclosed hrank hchoice helementary

lemma mem_members_iff (hrun : Run env { graph := g } s)
    (hwrapper : ∀ other, some other ∈ (g.node id).oneOf →
      g.isDefinitionType env.resolver.inlineNamedAny (g.actual other) →
        t.wrapper? (g.actual other) = s.wrapper? (g.actual other))
    (hfirst : Run env s u) (hlast : Run env v t) (hid : id ∉ u.prepared)
    {nullable : Bool} {hint : Option String} {member : TypeExpr}
    (hresolve : SessionM.resolve id nullable hint env u = (.ok e, v)) (hnull : member ≠ .null)
    (hkeyword : member ≠ .nullKeyword env.typescript.nullKeyword) :
    member ∈ e.unionMembers ↔ ∃ other, some other ∈ (g.node id).oneOf ∧
      Spelling g env.resolver.inlineNamedAny t (g.actual other) member := by
  have hbegin : Run env { graph := g } u := hrun.trans hfirst
  obtain ⟨hchoice', hnone⟩ := hchoice.unprepared hclosed hrank hbegin hid
  obtain ⟨depth, hdepth⟩ := @resolve_choice env u id hchoice' hnone nullable hint
  rw [hdepth] at hresolve
  obtain ⟨e', w, hunion, hspell⟩ := bind_eq_ok hresolve
  obtain ⟨results, hresults, rfl⟩ :=
    spellUnion_answered (resolveWithin_proper env (depth + 1)) hunion
  obtain ⟨rfl, hnullable⟩ := spellNullable_members hspell
  have hiff {e : TypeExpr} (he : e ≠ .null) := mem_results_iff href hclosed hrank hrun
    (resolveWithin_bare depth) (hresults.imp fun _ _ h => h.between.mono hfirst hlast)
    (fun other hother => helementary other (by rwa [(hbegin.grows id).oneOf] at hother))
    (fun other hother => hwrapper other (by rwa [(hbegin.grows id).oneOf] at hother)) he
  rw [(hbegin.grows id).oneOf] at hiff
  have hidents : ∀ e ∈ results.eraseDups, ∃ name, e = .ident name := by
    intro e he
    by_cases hnull : e = .null
    · exact ⟨_, hnull⟩
    · obtain ⟨_, _, hspelling⟩ := (hiff hnull).mp (List.mem_eraseDups.mp he)
      exact hspelling.exists_ident
  rw [hnullable member hkeyword, TypeExpr.mem_unionMembers_join_idents hidents,
    List.mem_eraseDups, hiff hnull]

lemma resolve_choice_still (hrun : Run env { graph := g } s) (hid : id ∉ s.prepared)
    (hspelled : ∀ other, some other ∈ (g.node id).oneOf →
      ∃ e, Spelling g env.resolver.inlineNamedAny s (g.actual other) e)
    (nullable : Bool) (hint : Option String) :
    ∃ e, SessionM.resolve id nullable hint env s = (.ok e, s) := by
  obtain ⟨hchoice', hnone⟩ := hchoice.unprepared hclosed hrank hrun hid
  obtain ⟨depth, hdepth⟩ := @resolve_choice env s id hchoice' hnone nullable hint
  have hresolved (other : SchemaId) (hother : some other ∈ (s.graph.node id).oneOf) :
      ∃ e, resolveWithin (depth + 1) other false none env s = (.ok e, s) := by
    rw [(hrun.grows id).oneOf] at hother
    obtain ⟨e, he⟩ := hspelled other hother
    exact ⟨e, resolved_of_spelling href hclosed hrank hrun (helementary other hother)
      (resolveWithin_bare depth) he⟩
  obtain ⟨es, hes⟩ := resolveAlternatives_still [] hresolved
  have hunion : spellUnion (resolveWithin (depth + 1)) (s.graph.node id).oneOf env s =
      (.ok (.join es), s) := by
    rw [spellUnion, bind_ok hes, pure_apply]
  rw [hdepth, bind_ok hunion, spellNullable, bind_ok read_apply]
  split
  · exact ⟨_, rfl⟩
  · exact ⟨_, rfl⟩

end

end SessionM

end SchemaTypes
