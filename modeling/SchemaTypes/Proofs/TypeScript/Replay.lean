import SchemaTypes.Proofs.Session.Repetition
import SchemaTypes.Proofs.Session.Restoration
import SchemaTypes.Proofs.Session.Steady
import SchemaTypes.Proofs.TypeScript.Termination

/-! Usages that are resolved again. As long as nothing happens to the schemas inside, every step of
the first time is found done, and the second time changes nothing. -/

namespace SchemaTypes

namespace SessionM

variable {α β : Type} {env : Environment} {s : Session}

lemma typeName_expanding (id : SchemaId) (hint : Option String) :
    (typeName id hint env s).2.expanding = s.expanding := by
  have hrestores : Restores env s (typeName id hint) := typeName_restores id hint
  exact congrArg Prod.snd hrestores

lemma expanding_of_typeName {id : SchemaId} {hint : Option String} {result : Except Failure String}
    {t : Session} (h : typeName id hint env s = (result, t)) : t.expanding = s.expanding := by
  have hexpanding : (typeName id hint env s).2.expanding = s.expanding := typeName_expanding id hint
  rwa [h] at hexpanding

end SessionM

open SessionM

/-- A point on the way from `s` where lists and dictionaries with these numbers are spelled out. -/
structure Session.Midway (env : Environment) (s : Session)
    (expanding : List (SchemaId × Option String)) (u : Session) : Prop where
  run : Run env s u
  keys : expanding.map (·.1) = u.expanding.map (·.1)

lemma Session.Midway.after {env : Environment} {s u v : Session}
    {expanding : List (SchemaId × Option String)} (h : Midway env s expanding u)
    (hrun : Run env u v) (hsame : v.expanding = u.expanding) : Midway env s expanding v :=
  ⟨h.run.trans hrun, by rw [hsame]; exact h.keys⟩

namespace SessionM

variable {α β : Type} {env : Environment} {s t u : Session}
  {expanding : List (SchemaId × Option String)}

/-- While these containers are spelled out, the second action returns in the last session what the
first one returned, and changes nothing there. -/
structure Replays (env : Environment) (t : Session) (expanding : List (SchemaId × Option String))
    (u : Session) (x y : SessionM α) : Prop where
  run : Session.Run env u (x env u).2
  restored : (x env u).2.expanding = u.expanding
  again : ∀ a u', x env u = (.ok a, u') → Session.Run env u' t →
    y env { t with expanding } = (.ok a, { t with expanding })

namespace Replays

variable {x y : SessionM α} {f f' : α → SessionM β}

lemma pure (a : α) : Replays env t expanding u (pure a) (pure a) := by
  refine ⟨.refl, rfl, fun b u' h _ => ?_⟩
  cases h
  rfl

lemma throw (e : Failure) : Replays env t expanding u (throw e) y :=
  ⟨.refl, rfl, fun b u' h _ => by cases h⟩

lemma bind (hx : Replays env t expanding u x y)
    (hf : ∀ a u', Session.Run env u u' → u'.expanding = u.expanding →
      Replays env t expanding u' (f a) (f' a)) :
    Replays env t expanding u (x >>= f) (y >>= f') := by
  have hrun := hx.run
  have hrestored := hx.restored
  rcases hxu : x env u with ⟨e | a, u'⟩
  · rw [hxu] at hrun hrestored
    have heq : (x >>= f) env u = (.error e, u') := by rw [bind_apply, hxu]
    refine ⟨by rwa [heq], by rwa [heq], fun b v h _ => ?_⟩
    rw [heq] at h
    cases h
  · rw [hxu] at hrun hrestored
    have hnext := hf a u' hrun hrestored
    have heq : (x >>= f) env u = f a env u' := bind_ok hxu
    refine ⟨?_, ?_, fun b v h ht => ?_⟩
    · rw [heq]
      exact hrun.trans hnext.run
    · rw [heq]
      exact hnext.restored.trans hrestored
    · rw [heq] at h
      have hlater := hnext.run
      rw [h] at hlater
      rw [bind_ok (hx.again a u' hxu (hlater.trans ht))]
      exact hnext.again b v h ht

lemma congr {x' y' : SessionM α} (h : Replays env t expanding u x' y') (hx : x env u = x' env u)
    (hy : Session.Run env u t → y env { t with expanding } = y' env { t with expanding }) :
    Replays env t expanding u x y := by
  refine ⟨by rw [hx]; exact h.run, by rw [hx]; exact h.restored, fun a u' hxu ht => ?_⟩
  rw [hx] at hxu
  have hrun := h.run
  rw [hxu] at hrun
  rw [hy (hrun.trans ht)]
  exact h.again a u' hxu ht

/-- In a container that is spelled out. Where it is entered the list of these grows, and with the
last step it is what it was. -/
lemma within {x y : SessionM α} {id : SchemaId} {hint hint' : Option String}
    (hkeys : expanding.map (·.1) = u.expanding.map (·.1)) (hid : id ∉ u.expanding.map (·.1))
    (h : Replays env t ((id, hint') :: expanding) (u.beginExpansion id hint) x y) :
    Replays env t expanding u (SessionM.within (·.beginExpansion id hint) (·.endExpansion id) x)
      (SessionM.within (·.beginExpansion id hint') (·.endExpansion id) y) := by
  obtain ⟨hrun, hrestored, hagain⟩ := h
  refine ⟨?_, ?_, fun a u' hx ht => ?_⟩
  · exact ((Relation.ReflTransGen.single (.beginExpansion id hint)).trans hrun).tail
      (.endExpansion id)
  · change (x env (u.beginExpansion id hint)).2.expanding.filter (·.1 != id) = u.expanding
    rw [hrestored, Session.beginExpansion, Entries.filter_cons_self hid]
  · rcases hxu : x env (u.beginExpansion id hint) with ⟨result, v⟩
    have hleave : SessionM.within (·.beginExpansion id hint) (·.endExpansion id) x env u =
        (result, v.endExpansion id) := by rw [SessionM.within, hxu]
    rw [hleave] at hx
    obtain ⟨rfl, rfl⟩ := Prod.mk.inj hx
    have hy := hagain a v hxu (.head (.endExpansion id) ht)
    have henter : ({ t with expanding } : Session).beginExpansion id hint' =
        { t with expanding := (id, hint') :: expanding } := rfl
    rw [SessionM.within, henter, hy]
    simp only [Session.endExpansion, Entries.filter_cons_self (hkeys ▸ hid)]

end Replays

end SessionM

/-- What the first resolver returns on the way from `s` to `t` for one of these schemas, the second
one returns at `t`, whatever the hints. -/
def Resolver.Replays (env : Environment) (P : SchemaId → Prop) (s t : Session)
    (resolve resolve' : Resolver) : Prop :=
  ∀ expanding u, Session.Midway env s expanding u → ∀ id, P id → ∀ nullable hint hint',
    SessionM.Replays env t expanding u (resolve id nullable hint) (resolve' id nullable hint')

namespace SessionM

open Session (Quiet Midway Run)

variable {α β : Type} {env : Environment} {s t u : Session} {P : SchemaId → Prop}
  {expanding : List (SchemaId × Option String)} {id : SchemaId}

lemma read_replays {f f' : Environment → SessionM β}
    (h : Replays env t expanding u (f env) (f' env)) :
    Replays env t expanding u (read >>= f) (read >>= f') :=
  h.congr (bind_ok read_apply) fun _ => bind_ok read_apply

lemma dialect_replays {f f' : Dialect → SessionM β}
    (h : Replays env t expanding u (f env.resolver.dialect) (f' env.resolver.dialect)) :
    Replays env t expanding u (dialect >>= f) (dialect >>= f') :=
  h.congr (bind_ok dialect_apply) fun _ => bind_ok dialect_apply

lemma get_replays {f f' : Session → SessionM β} (h : Replays env t expanding u (f u) (f' u))
    (hsame : Run env u t → f' { t with expanding } = f' u) :
    Replays env t expanding u (get >>= f) (get >>= f') :=
  h.congr (bind_ok get_apply) fun hrun => by rw [bind_ok get_apply, hsame hrun]

lemma graph_replays {f f' : Graph → SessionM β}
    (h : Replays env t expanding u (f u.graph) (f' u.graph))
    (hsame : Run env u t → f' t.graph = f' u.graph) :
    Replays env t expanding u (graph >>= f) (graph >>= f') :=
  h.congr (bind_ok graph_apply) fun hrun => by rw [bind_ok graph_apply, hsame hrun]

lemma spellNullable_replays (nullable : Bool) (e : TypeExpr) :
    Replays env t expanding u (spellNullable nullable e) (spellNullable nullable e) := by
  refine read_replays ?_
  simp only
  split
  · exact .pure _
  · exact .pure _

/-- The name of a schema with this carrier, at both points. -/
lemma spelled_replays (id : SchemaId) {carrier : SchemaId} (hu : u.graph.carrier id = carrier)
    (ht : Run env u t → t.graph.carrier id = carrier) (hint hint' : Option String) :
    Replays env t expanding u (typeName id hint >>= fun name => pure (TypeExpr.ident name))
      (typeName id hint' >>= fun name => pure (TypeExpr.ident name)) := by
  refine Replays.bind ⟨(typeName_leads id hint).1, typeName_expanding id hint, ?_⟩
    fun _ _ _ _ => .pure _
  intro name u' h hlater
  obtain ⟨hrun, hname⟩ := (typeName_leads id hint).result h
  refine typeName_named ?_ hint'
  change t.nameOf? (t.graph.carrier id) = some name
  rw [ht (hrun.trans hlater), ← hu]
  exact hlater.nameOf? hname

/-- How a container is spelled when that is known: by its name, if it got one in the meantime. -/
def namedOr (id : SchemaId) (e : TypeExpr) : SessionM TypeExpr := do
  match (← get).nameOf? id with
  | some name => return .ident name
  | none => return e

lemma namedOr_eq_ok {e e' : TypeExpr} (h : namedOr id e env s = (.ok e', t)) :
    t = s ∧ ((∃ name, s.nameOf? id = some name ∧ e' = .ident name) ∨
      s.nameOf? id = none ∧ e' = e) := by
  rw [namedOr, bind_ok get_apply] at h
  cases hname : s.nameOf? id with
  | some name =>
    simp only [hname] at h
    cases h
    exact ⟨rfl, .inl ⟨name, rfl, rfl⟩⟩
  | none =>
    simp only [hname] at h
    cases h
    exact ⟨rfl, .inr ⟨rfl, rfl⟩⟩

lemma resolveContainer_named {resolve : Resolver} {hint : Option String} {name : String}
    (hname : s.nameOf? id = some name) :
    resolveContainer resolve id hint env s = (.ok (.ident name), s) := by
  rw [resolveContainer, bind_ok get_apply]
  simp only [hname, pure_apply]

lemma resolveContainer_inside {resolve : Resolver} {hint outer : Option String}
    (hname : s.nameOf? id = none) (houter : s.expanding.lookup id = some outer) :
    resolveContainer resolve id hint env s =
      (typeName id (s.graph.definitionKey id <|> outer <|> hint) >>= fun name =>
        pure (TypeExpr.ident name)) env s := by
  rw [resolveContainer, bind_ok get_apply]
  simp only [hname, houter]

lemma resolveContainer_entered {resolve : Resolver} {hint : Option String}
    (hname : s.nameOf? id = none) (houter : s.expanding.lookup id = none) :
    resolveContainer resolve id hint env s =
      (SessionM.within (·.beginExpansion id hint) (·.endExpansion id) (spellContainer resolve id)
        >>= namedOr id) env s := by
  rw [resolveContainer, bind_ok get_apply]
  simp only [hname, houter]
  rfl

section

variable {resolve resolve' : Resolver} (hresolve : resolve.Replays env P s t resolve')
  (hu : Midway env s expanding u)

include hresolve hu

lemma resolveDistinct_replays {usages : List (SchemaId × Bool)} (found : List TypeExpr)
    (husages : ∀ usage ∈ usages, P usage.1) :
    Replays env t expanding u (resolveDistinct resolve found usages)
      (resolveDistinct resolve' found usages) := by
  induction usages generalizing u found with
  | nil => exact .pure _
  | cons usage rest ih =>
    obtain ⟨hid, hrest⟩ := List.forall_mem_cons.mp husages
    refine (hresolve expanding u hu usage.1 hid usage.2 none none).bind fun e v hrun hsame => ?_
    exact ih (hu.after hrun hsame) _ hrest

lemma resolveAlternatives_replays {alternatives : List (Option SchemaId)} (found : List TypeExpr)
    (hids : ∀ id, some id ∈ alternatives → P id) :
    Replays env t expanding u (resolveAlternatives resolve found alternatives)
      (resolveAlternatives resolve' found alternatives) := by
  induction alternatives generalizing u found with
  | nil => exact .pure _
  | cons alternative rest ih =>
    have hrest : ∀ id, some id ∈ rest → P id := fun id hid => hids id (List.mem_cons_of_mem _ hid)
    cases alternative with
    | none => exact (Replays.pure _).bind fun e v hrun hsame => ih (hu.after hrun hsame) _ hrest
    | some id =>
      have hid := hresolve expanding u hu id (hids id List.mem_cons_self) false none none
      exact hid.bind fun e v hrun hsame => ih (hu.after hrun hsame) _ hrest

lemma spellUnion_replays {alternatives : List (Option SchemaId)}
    (hids : ∀ id, some id ∈ alternatives → P id) :
    Replays env t expanding u (spellUnion resolve alternatives)
      (spellUnion resolve' alternatives) :=
  (resolveAlternatives_replays hresolve hu [] hids).bind fun _ _ _ _ => .pure _

variable (hquiet : Quiet P s t)

include hquiet

lemma resolveMember_replays (hid : P id) :
    Replays env t expanding u (resolveMember resolve id) (resolveMember resolve' id) := by
  refine graph_replays (dialect_replays ?_) fun hrun => ?_
  · exact hresolve expanding u hu id hid _ none none
  · simp only [(hquiet.later hu.run).isActualNullable hrun hid]

lemma resolveMembers_replays {ids : List SchemaId} (hids : ∀ id ∈ ids, P id) :
    Replays env t expanding u (resolveMembers resolve ids) (resolveMembers resolve' ids) := by
  induction ids generalizing u with
  | nil => exact .pure _
  | cons id rest ih =>
    obtain ⟨hid, hrest⟩ := List.forall_mem_cons.mp hids
    refine (resolveMember_replays hresolve hu hquiet hid).bind fun e v hrun hsame => ?_
    exact (ih (hu.after hrun hsame) hrest).bind fun _ _ _ _ => .pure _

lemma dictionaryValue_replays (hid : P id) :
    Replays env t expanding u (dictionaryValue resolve id) (dictionaryValue resolve' id) := by
  have huses := (hquiet.later hu.run).uses
  refine graph_replays ?_ fun hrun => ?_
  rotate_left
  · obtain ⟨_, _, _, _, hnode⟩ := hrun.grows id
    simp only [hnode, (hquiet.later hu.run).isNullable hrun]
  simp only
  split
  · rename_i additional hadditional
    have hP := huses id additional hid (.additional hadditional)
    exact (resolveMember_replays hresolve hu hquiet hP).bind fun _ _ _ _ => .pure _
  · split
    · refine dialect_replays (Replays.bind ?_ fun es v _ _ => ?_)
      · refine resolveDistinct_replays hresolve hu [] fun usage husage => ?_
        obtain ⟨entry, hentry, rfl⟩ := List.mem_map.mp husage
        exact huses id entry.2 hid (.pattern entry.1 hentry)
      · split
        · exact .pure _
        · exact .pure _
    · exact .pure _

lemma dictionaryKey_replays (hid : P id) :
    Replays env t expanding u (dictionaryKey resolve id) (dictionaryKey resolve' id) := by
  have huses := (hquiet.later hu.run).uses
  refine graph_replays ?_ fun hrun => ?_
  rotate_left
  · obtain ⟨_, _, _, _, hnode⟩ := hrun.grows id
    simp only [hnode]
  split
  · rename_i key hkey
    have hP := huses id key hid (.dictionaryKey hkey)
    exact (resolveMember_replays hresolve hu hquiet hP).bind fun _ _ _ _ => .pure _
  · exact .pure _

lemma spellContainer_replays (hid : P id) :
    Replays env t expanding u (spellContainer resolve id) (spellContainer resolve' id) := by
  have huses := (hquiet.later hu.run).uses
  refine graph_replays ?_ fun hrun => ?_
  rotate_left
  · obtain ⟨_, _, _, _, hnode⟩ := hrun.grows id
    simp only [hnode, Node.isArray, Node.hasType]
    rfl
  simp only
  split
  · split
    · rename_i items hitems
      have hmembers := resolveMembers_replays hresolve hu hquiet fun other hother =>
        huses id other hid (.tuple items hitems hother)
      exact hmembers.bind fun _ _ _ _ => .pure _
    · rename_i item hitem
      have hP := huses id item hid (.each hitem)
      exact (resolveMember_replays hresolve hu hquiet hP).bind fun _ _ _ _ => .pure _
    · exact .pure _
  · refine (dictionaryKey_replays hresolve hu hquiet hid).bind fun key v hrun hsame => ?_
    have hvalue := dictionaryValue_replays hresolve (hu.after hrun hsame) hquiet hid
    exact hvalue.bind fun _ _ _ _ => .pure _

omit hresolve in
lemma namedOr_replays (hid : P id) (hcontainer : u.IsContainer id) (e : TypeExpr) :
    Replays env t expanding u (namedOr id e) (namedOr id e) := by
  cases hname : u.nameOf? id with
  | some name =>
    refine Replays.congr (.pure (.ident name)) ?_ fun hrun => ?_
    · rw [namedOr, bind_ok get_apply]
      simp only [hname]
    · have hname' : ({ t with expanding } : Session).nameOf? id = some name := hrun.nameOf? hname
      rw [namedOr, bind_ok get_apply]
      simp only [hname']
  | none =>
    refine Replays.congr (.pure e) ?_ fun hrun => ?_
    · rw [namedOr, bind_ok get_apply]
      simp only [hname]
    · have hname' : ({ t with expanding } : Session).nameOf? id = none :=
        ((hquiet.later hu.run).nameOf? hrun hid hcontainer).trans hname
      rw [namedOr, bind_ok get_apply]
      simp only [hname']

lemma resolveContainer_replays (hid : P id) (hcontainer : u.IsContainer id)
    (hint hint' : Option String) :
    Replays env t expanding u (resolveContainer resolve id hint)
      (resolveContainer resolve' id hint') := by
  cases hname : u.nameOf? id with
  | some name =>
    refine Replays.congr (.pure (.ident name)) (resolveContainer_named hname) fun hrun => ?_
    have hname' : ({ t with expanding } : Session).nameOf? id = some name := hrun.nameOf? hname
    exact resolveContainer_named hname'
  | none =>
    have hname' (hrun : Run env u t) : ({ t with expanding } : Session).nameOf? id = none :=
      ((hquiet.later hu.run).nameOf? hrun hid hcontainer).trans hname
    cases houter : u.expanding.lookup id with
    | some outer =>
      obtain ⟨outer', houter'⟩ : ∃ outer', expanding.lookup id = some outer' := by
        rw [← Option.ne_none_iff_exists', ne_eq, Entries.lookup_eq_none, hu.keys,
          ← Entries.lookup_eq_none, houter]
        simp
      refine Replays.congr (spelled_replays id rfl (fun hrun => ?_)
        (u.graph.definitionKey id <|> outer <|> hint)
        (t.graph.definitionKey id <|> outer' <|> hint')) ?_ fun hrun => ?_
      · exact (hquiet.later hu.run).carrier hrun hid
      · exact resolveContainer_inside hname houter
      · exact resolveContainer_inside (hname' hrun) houter'
    | none =>
      have hnot : id ∉ u.expanding.map (·.1) := Entries.lookup_eq_none.mp houter
      have houter' : expanding.lookup id = none := Entries.lookup_eq_none.mpr (hu.keys ▸ hnot)
      have hbegin : Midway env s ((id, hint') :: expanding) (u.beginExpansion id hint) :=
        ⟨hu.run.tail (.beginExpansion id hint), by simp [Session.beginExpansion, hu.keys]⟩
      have hspell := spellContainer_replays hresolve hbegin hquiet hid
      refine Replays.congr ((Replays.within hu.keys hnot hspell).bind fun e v hrun hsame =>
        namedOr_replays (hu.after hrun hsame) hquiet hid (hrun.isContainer.mpr hcontainer) e)
        ?_ fun hrun => ?_
      · exact resolveContainer_entered hname houter
      · exact resolveContainer_entered (hname' hrun) houter'

omit hresolve hu hquiet in
lemma resolvePlain_grows {node node' : Node} (h : node.Grows node') :
    resolvePlain resolve node' = resolvePlain resolve node := by
  obtain ⟨_, _, _, _, rfl⟩ := h
  rfl

omit hquiet in
lemma resolvePlain_replays {node : Node}
    (hids : ∀ id, some id ∈ node.oneOf ∨ id ∈ node.anyOf → P id) :
    Replays env t expanding u (resolvePlain resolve node) (resolvePlain resolve' node) := by
  cases node.plain with
  | keyword _ h =>
    rw [h, h]
    exact .pure _
  | union alternatives _ _ halternatives h =>
    rw [h, h]
    exact spellUnion_replays hresolve hu fun id hid =>
      hids id (Node.mem_of_mem_union halternatives hid)

lemma resolveBare_replays (hid : P id) (hint hint' : Option String) :
    Replays env t expanding u (resolveBare resolve id hint) (resolveBare resolve' id hint') := by
  have hlater := hquiet.later hu.run
  have husage := hlater.uses.resolvable hid
  have hactual := fun inlineNamedAny => hlater.uses.actual (husage inlineNamedAny)
  refine get_replays (read_replays ?_) fun hrun => ?_
  rotate_left
  · have hwrapper : ∀ inlineNamedAny, ({ t with expanding } : Session).wrapper? _ = _ :=
      fun inlineNamedAny => hlater.wrapper? hrun (hactual inlineNamedAny)
    simp only [hlater.resolvable hrun hid, hlater.actual hrun (husage _), hwrapper,
      hlater.isAny hrun (hactual _), hlater.isEnumeration hrun (hactual _),
      hlater.generatesType hrun hid, Graph.isReference, (hrun.grows _).reference,
      (hrun.grows _).isArray, (hrun.grows _).isDictionary, resolvePlain_grows (hrun.grows _)]
    rfl
  · simp only
    split
    · rename_i wrapper hwrapper
      refine spelled_replays wrapper (hlater.plain.carrier hwrapper) (fun hrun => ?_) hint hint'
      exact (hrun.plainWrappers hlater.plain).carrier (hrun.wrapper? hwrapper)
    · split
      · exact .pure _
      · split
        · exact spelled_replays id rfl (fun hrun => hlater.carrier hrun hid) hint hint'
        · split
          · rename_i hcontainer
            rw [Bool.or_eq_true] at hcontainer
            exact resolveContainer_replays hresolve hu hquiet (hactual _) hcontainer hint hint'
          · refine resolvePlain_replays hresolve hu fun other hother => ?_
            exact hlater.uses _ other (hactual _) (hother.elim .oneOf .anyOf)

omit hresolve hu in
lemma resolveWithin_replays {depth depth' : ℕ} (hdepth : depth ≤ depth') :
    (resolveWithin depth).Replays env P s t (resolveWithin depth') := by
  induction depth generalizing depth' with
  | zero => exact fun expanding u _ id _ nullable hint hint' => .throw _
  | succ depth ih =>
    obtain ⟨depth', rfl⟩ := Nat.exists_eq_add_of_le' (Nat.zero_lt_of_lt hdepth)
    intro expanding u hu id hid nullable hint hint'
    have hbare := resolveBare_replays (ih (Nat.le_of_succ_le_succ hdepth)) hu hquiet hid hint hint'
    exact hbare.bind fun e v _ _ => spellNullable_replays nullable e

omit hresolve hu in
lemma resolve_replays : SessionM.resolve.Replays env P s t SessionM.resolve := by
  intro expanding u hu id hid nullable hint hint'
  -- The bound may be greater the second time.
  let bound := (u.graph.size + 2) * (u.graph.size + 2)
  let bound' := (t.graph.size + 2) * (t.graph.size + 2)
  have hwithin : (resolveWithin bound).Replays env P s t (resolveWithin (max bound bound')) :=
    resolveWithin_replays hquiet (Nat.le_max_left bound bound')
  refine (hwithin expanding u hu id hid nullable hint hint').congr (bind_ok graph_apply)
    fun hrun => ?_
  have hle := hrun.size_le
  have hbound : bound ≤ bound' := Nat.mul_le_mul (by omega) (by omega)
  rw [Nat.max_eq_right hbound, SessionM.resolve, bind_ok graph_apply]

end

end SessionM

/-- A name that is asked for again is the same one exactly if the carrier of the schema is. -/
lemma Session.Run.named_again {env : Environment} {g : Graph} {s s₁ t : Session} {id : SchemaId}
    {hint : Option String} {name : String} (hrun : Run env { graph := g } s)
    (hname : SessionM.typeName id hint env s = (.ok name, s₁)) (hlater : Run env s₁ t)
    (hint' : Option String) :
    ((SessionM.typeName id hint' env t).1 = .ok name ↔
        t.graph.carrier id = s.graph.carrier id) ∧
      ((SessionM.typeName id hint' env t).1 = .ok name →
        (SessionM.typeName id hint' env t).2 = t) := by
  obtain ⟨hfirst, hcarrier⟩ := (SessionM.typeName_leads id hint).result hname
  have hnamed : t.nameOf? (s.graph.carrier id) = some name := hlater.nameOf? hcarrier
  have hagain (heq : t.graph.carrier id = s.graph.carrier id) :
      SessionM.typeName id hint' env t = (.ok name, t) :=
    SessionM.typeName_named (by rw [heq]; exact hnamed) hint'
  have hsame (hok : (SessionM.typeName id hint' env t).1 = .ok name) :
      t.graph.carrier id = s.graph.carrier id := by
    obtain ⟨hmore, hname'⟩ := (SessionM.typeName_leads id hint').result (Prod.ext hok rfl)
    have hwhole : Run env { graph := g } _ := (hrun.trans (hfirst.trans hlater)).trans hmore
    exact (hwhole.namesApart (.start g)).nameOf?_inj hname' (hmore.nameOf? hnamed)
  refine ⟨⟨hsame, fun heq => by rw [hagain heq]⟩, fun hok => ?_⟩
  rw [hagain (hsame hok)]

namespace Document

open Session SessionM

variable {text : String} {d : Document} {env : Environment} {s t : Session} {id : SchemaId}

lemma object_plain (hload : ofJson text = .ok d ∨ ofYaml text = .ok d)
    (hobject : (d.graph.node id).isObject) : (d.graph.node id).reference = none := by
  obtain ⟨root, hrepresents⟩ := represents_of_load hload
  rw [← Option.not_isSome_iff_eq_none]
  intro href
  obtain ⟨target, isProperty, hnode⟩ := hrepresents.reference_plain href
  rw [Node.isObject, Node.hasType, hnode] at hobject
  simp at hobject

/-- The carrier of a schema is another one later only by a cycle of references, or if the schema,
without a discriminator until then, has become a subtype. -/
lemma carrier_changed (hload : ofJson text = .ok d ∨ ofYaml text = .ok d)
    (hrun : Run env { graph := d.graph } s) (hlater : Run env s t)
    (hother : t.graph.carrier id ≠ s.graph.carrier id) :
    t.graph.isReference (t.graph.carrier id) ∨
      (s.graph.node id).discriminator = none ∧ Shared t.graph t.wrappers id := by
  obtain ⟨root, hrepresents⟩ := represents_of_load hload
  obtain ⟨rank, hrank⟩ := hrepresents.exists_ranked
  have hgrown := hrank.grows hrun.grows hrun.size_le
  have hplain := hrun.grows.plain_object fun h : (d.graph.node id).isObject =>
    object_plain hload h
  refine (hlater.carrier_cases hgrown hplain hother).imp_right fun ⟨hnone, hsome⟩ => ⟨hnone, ?_⟩
  -- Only subtypes get discriminators.
  have hwhole : Run env { graph := d.graph } t := hrun.trans hlater
  obtain ⟨_, _, hhierarchies⟩ :=
    hwhole.hierarchies hrepresents.closed (oneOf_of_reference hload)
  by_contra hshared
  rw [hhierarchies.untouched _ hshared] at hsome
  exact hsome ((hrun.grows id).discriminator_eq_none hnone)

/-- A usage is resolved again to the same expression, if all schemas inside have stayed as they
were and the same lists and dictionaries are being spelled out. -/
lemma resolves_again (hload : ofJson text = .ok d ∨ ofYaml text = .ok d) {nullable : Bool}
    {hint : Option String} {e : TypeExpr} {s₁ : Session} (hrun : Run env { graph := d.graph } s)
    (hid : id < s.graph.size) (hresolved : SessionM.resolve id nullable hint env s = (.ok e, s₁))
    (hlater : Run env s₁ t) (hexpanding : t.expanding = s.expanding)
    (hsteady : ∀ other, Relation.ReflTransGen s.graph.Uses id other → s.Steady t other)
    (hint' : Option String) : SessionM.resolve id nullable hint' env t = (.ok e, t) := by
  obtain ⟨root, hrepresents⟩ := represents_of_load hload
  obtain ⟨rank, hrank⟩ := hrepresents.exists_ranked
  have hclosed := (hrun.extends (.start hrepresents.closed)).closed
  have hquiet : Quiet (Relation.ReflTransGen s.graph.Uses id) s t :=
    ⟨⟨rank, hrank.grows hrun.grows hrun.size_le⟩,
      fun _ => hrun.grows.plain_object (object_plain hload), hrun.plainWrappers (.start d.graph),
      fun _ _ hreach huses => hreach.tail huses, fun _ => hclosed.reaches_lt hid, hsteady⟩
  have hmidway : Midway env s s.expanding s := ⟨.refl, rfl⟩
  have hreplays := resolve_replays hquiet s.expanding s hmidway id .refl nullable hint hint'
  have hagain := hreplays.again e s₁ hresolved hlater
  have hsame : ({ t with expanding := s.expanding } : Session) = t := by rw [← hexpanding]
  rwa [hsame] at hagain

lemma resolved_again (hload : ofJson text = .ok d ∨ ofYaml text = .ok d) {before later : List Call}
    {nullable : Bool} {hint : Option String} {e : TypeExpr} {s₁ : Session}
    (hs : ({ graph := d.graph } : Session).after env before = s)
    (hresolved : SessionM.resolve id nullable hint env s = (.ok e, s₁))
    (haccepts : Accepts env { graph := d.graph } (before ++ .resolve id nullable hint :: later))
    (ht : s₁.after env later = t)
    (hsteady : ∀ other, Relation.ReflTransGen s.graph.Uses id other → s.Steady t other)
    (hint' : Option String) : SessionM.resolve id nullable hint' env t = (.ok e, t) := by
  obtain ⟨root, hrepresents⟩ := represents_of_load hload
  obtain ⟨rank, hrank⟩ := hrepresents.exists_ranked
  have hstart : Idle d.graph { graph := d.graph } := .start hrepresents.closed
  have hrun : Run env { graph := d.graph } s := hs ▸ run_after _ before
  have hlater : Run env s₁ t := ht ▸ run_after _ later
  -- Between the calls no container is being spelled out.
  obtain ⟨hidle, hrest⟩ := haccepts.split hrank hstart
  rw [hs] at hidle hrest
  have hidle' : t.Idle d.graph := by
    have hcall : (Call.run (.resolve id nullable hint) env s).2 = s₁ := by
      rw [Call.run, discard_eq_bind, bind_ok hresolved, pure_apply]
    rw [← ht, ← hcall]
    rw [← List.append_nil (_ :: later)] at hrest
    exact (hrest.split hrank hidle).1
  have hexpanding : t.expanding = s.expanding := by
    rw [hidle.ready.expanding, hidle'.ready.expanding]
  exact resolves_again hload hrun hrest.1 hresolved hlater hexpanding hsteady hint'

/-- A call that is made again. A name is the same one exactly if the carrier of the schema is, and
another carrier comes from a cycle of references, or from a hierarchy that has made a subtype of a
schema without a discriminator. A usage is resolved to the same expression if all schemas inside
have stayed as they were; and in both cases the session is the same after as before. -/
theorem called_again (hload : ofJson text = .ok d ∨ ofYaml text = .ok d)
    (before later : List Call) :
    let s := ({ graph := d.graph } : Session).after env before
    (∀ id hint name s₁, typeName id hint env s = (.ok name, s₁) →
      let t := s₁.after env later
      (∀ hint', ((typeName id hint' env t).1 = .ok name ↔
          t.graph.carrier id = s.graph.carrier id) ∧
        ((typeName id hint' env t).1 = .ok name → (typeName id hint' env t).2 = t)) ∧
      (t.graph.carrier id ≠ s.graph.carrier id → t.graph.isReference (t.graph.carrier id) ∨
        (s.graph.node id).discriminator = none ∧ Shared t.graph t.wrappers id)) ∧
    ∀ id nullable hint e s₁, SessionM.resolve id nullable hint env s = (.ok e, s₁) →
      Accepts env { graph := d.graph } (before ++ .resolve id nullable hint :: later) →
      let t := s₁.after env later
      (∀ other, Relation.ReflTransGen s.graph.Uses id other → s.Steady t other) →
      ∀ hint', SessionM.resolve id nullable hint' env t = (.ok e, t) := by
  intro s
  have hrun : Run env { graph := d.graph } s := run_after _ before
  refine ⟨fun id hint name s₁ hname => ?_, fun id nullable hint e s₁ hresolved haccepts => ?_⟩
  · intro t
    have hlater : Run env s₁ t := run_after s₁ later
    have hfirst : Run env s s₁ := ((typeName_leads id hint).result hname).1
    exact ⟨hrun.named_again hname hlater,
      fun hother => carrier_changed hload hrun (hfirst.trans hlater) hother⟩
  · intro t hsteady
    exact resolved_again hload rfl hresolved haccepts rfl hsteady

lemma maybePet_steady :
    ∃ d, ofJson maybePetText = .ok d ∧ d.graph.size = 6 ∧
      (∃ e, (SessionM.resolve 5 false none (.ofSettings {}) { graph := d.graph }).1 = .ok e ∧
        e = .ident "Anonymous") ∧
      (∀ entry ∈ d.definitions, entry.2 < ((Call.resolve 5 false none).run (.ofSettings {})
        { graph := d.graph }).2.graph.size) ∧
      ∀ other < 6, ({ graph := d.graph } : Session).Steady
        ((SessionM.resolve 5 false none (.ofSettings {}) { graph := d.graph }).2.after
          (.ofSettings {}) [.register d.definitions, .emit]) other := by
  decide +kernel

/-- The reference is resolved to a type of its own before anything is registered, and it still is
when the definitions have got their names. -/
theorem maybePet_called_again :
    ∃ d, ofJson maybePetText = .ok d ∧
      let s : Session := { graph := d.graph }
      ∃ s₁, SessionM.resolve 5 false none (.ofSettings {}) s = (.ok (.ident "Anonymous"), s₁) ∧
        let t := s₁.after (.ofSettings {}) [.register d.definitions, .emit]
        (∀ other, Relation.ReflTransGen s.graph.Uses 5 other → s.Steady t other) ∧
        ∀ hint, SessionM.resolve 5 false hint (.ofSettings {}) t = (.ok (.ident "Anonymous"), t) := by
  obtain ⟨d, hload, hsize, ⟨e, hresolved, rfl⟩, hdefinitions, hsteady⟩ := maybePet_steady
  obtain ⟨root, hrepresents⟩ := represents_of_load (.inl hload)
  have hlt : 5 < d.graph.size := by omega
  have hall := fun other hreach => hsteady other (hsize ▸ hrepresents.closed.reaches_lt hlt hreach)
  obtain ⟨_, hsecond⟩ := @called_again maybePetText d (.ofSettings {}) (.inl hload) []
    [.register d.definitions, .emit]
  exact ⟨d, hload, _, Prod.ext hresolved rfl, hall,
    hsecond 5 false none _ _ (Prod.ext hresolved rfl) ⟨hlt, hdefinitions, trivial, trivial⟩ hall⟩

/-- Asked for a second time, after the registration, the name of the pet is another one. -/
theorem latePet_called_again :
    ∃ d, ofJson latePetText = .ok d ∧
      let s : Session := { graph := d.graph }
      let t := s.after (.ofSettings {}) [.typeName 1 (some "D"), .register d.definitions]
      (∃ name, (typeName 1 (some "D") (.ofSettings {}) s).1 = .ok name ∧ name = "D") ∧
      ∃ name, (typeName 1 (some "D") (.ofSettings {}) t).1 = .ok name ∧ name = "D2" := by
  decide +kernel

end Document

end SchemaTypes
