import SchemaTypes.Proofs.TypeScript.Asking
import SchemaTypes.Proofs.TypeScript.Replay
import SchemaTypes.Proofs.TypeScript.Restoration

/-! What is asked while a usage is resolved. The way in which the usage is spelled, and with it the
usages that are asked for in turn, depends on the session alone, and the answers do not depend on
the bound of the nesting. -/

namespace SchemaTypes

open Session

namespace TypeExpr

/-- One more expression, unless it is there already. -/
def addDistinct (found : List TypeExpr) (e : TypeExpr) : List TypeExpr :=
  if found.contains e then found else found ++ [e]

lemma foldl_addDistinct (results : List TypeExpr) :
    results.foldl addDistinct [] = results.eraseDups := by
  induction results using List.reverseRecOn with
  | nil => rfl
  | append_singleton results e ih =>
    rw [List.foldl_append, ih, List.foldl_cons, List.foldl_nil, List.eraseDups_append, addDistinct]
    cases hmem : results.contains e with
    | true => simp_all [List.removeAll]
    | false => simp_all [List.removeAll, List.eraseDups_cons]

/-- The expression in a list that has only one. -/
def single? : List TypeExpr → Option TypeExpr
  | [e] => some e
  | _ => none

lemma mem_of_single? {es : List TypeExpr} {e : TypeExpr} (h : single? es = some e) : e ∈ es := by
  rcases es with _ | ⟨first, _ | _⟩
  · cases h
  · cases h
    exact List.mem_singleton_self _
  · cases h

end TypeExpr

/-- The schema that a usage is spelled by: behind its references, and without its nullability. -/
def Session.spelledBy (env : Environment) (s : Session) (id : SchemaId) : SchemaId :=
  s.graph.actual (s.graph.resolvable env.resolver.inlineNamedAny id)

def Session.spelledNode (env : Environment) (s : Session) (id : SchemaId) : Node :=
  s.graph.node (s.spelledBy env id)

def Node.isContainer (node : Node) : Bool := node.isArray || node.isDictionary

/-- From a session on, what the first resolver returns the second one returns too. -/
def Resolver.Carries (env : Environment) (s : Session) (resolver resolver' : Resolver) : Prop :=
  ∀ u id nullable hint e v, Run env s u → resolver id nullable hint env u = (.ok e, v) →
    resolver' id nullable hint env u = (.ok e, v) ∧ Run env u v

namespace SessionM

/-- The ways in which a usage is spelled. It is the same way for every resolver, which matters for
the parts of a list, a dictionary or a union only. -/
inductive Route (env : Environment) (s : Session) (id : SchemaId) (hint : Option String) : Prop
  | wrapper (wrapper : SchemaId) (hwrapper : s.wrapper? (s.spelledBy env id) = some wrapper)
      (heq : ∀ resolver, resolveBare resolver id hint env s =
        (typeName wrapper hint >>= fun name => pure (TypeExpr.ident name)) env s)
  | anything (h : (s.spelledNode env id).isAny)
      (heq : ∀ resolver, resolveBare resolver id hint env s = (.ok .any, s))
  | named (h : s.graph.generatesType env.resolver.inlineNamedAny id ||
        (s.spelledNode env id).isEnumeration)
      (heq : ∀ resolver, resolveBare resolver id hint env s =
        (typeName id hint >>= fun name => pure (TypeExpr.ident name)) env s)
  | container (h : (s.spelledNode env id).isContainer)
      (heq : ∀ resolver, resolveBare resolver id hint env s =
        resolveContainer resolver (s.spelledBy env id) hint env s)
  | plain (h : (s.spelledNode env id).isContainer = false)
      (heq : ∀ resolver, resolveBare resolver id hint env s =
        resolvePlain resolver (s.spelledNode env id) env s)

lemma route (env : Environment) (s : Session) (id : SchemaId) (hint : Option String) :
    Route env s id hint := by
  cases hwrapper : s.wrapper? (s.spelledBy env id) with
  | some wrapper =>
    refine .wrapper wrapper hwrapper fun resolver => ?_
    rw [spelledBy] at hwrapper
    rw [resolveBare, bind_ok get_apply, bind_ok read_apply]
    simp only [hwrapper]
  | none =>
    have hbare (resolver : Resolver) :
        resolveBare resolver id hint env s =
          (if (s.spelledNode env id).isAny &&
              !s.graph.isReference (s.graph.resolvable env.resolver.inlineNamedAny id) then
            pure .any
          else if s.graph.generatesType env.resolver.inlineNamedAny id ||
              (s.spelledNode env id).isEnumeration then
            typeName id hint >>= fun name => pure (TypeExpr.ident name)
          else if (s.spelledNode env id).isContainer then
            resolveContainer resolver (s.spelledBy env id) hint
          else resolvePlain resolver (s.spelledNode env id)) env s := by
      rw [spelledBy] at hwrapper
      rw [resolveBare, bind_ok get_apply, bind_ok read_apply]
      simp only [hwrapper]
      rfl
    split at hbare
    · rename_i hany
      exact .anything (Bool.and_eq_true_iff.mp hany).1 hbare
    · split at hbare
      · rename_i hnamed
        exact .named hnamed hbare
      · cases hcontainer : (s.spelledNode env id).isContainer with
        | true =>
          simp only [hcontainer, if_true] at hbare
          exact .container hcontainer hbare
        | false =>
          simp only [hcontainer, Bool.false_eq_true, if_false] at hbare
          exact .plain hcontainer hbare

section

variable {env : Environment} {s : Session} {first second : SchemaId}

lemma typeName_congr (h : s.graph.carrier first = s.graph.carrier second) (hint : Option String) :
    typeName first hint env s = typeName second hint env s := by
  have hschema : s.graph.actual (s.graph.removeNullability first) =
      s.graph.actual (s.graph.removeNullability second) := h
  simp only [typeName, bind_ok graph_apply, typeNameWithin, bind_ok get_apply, hschema]

lemma resolveBare_congr
    (husage : s.graph.resolvable env.resolver.inlineNamedAny first =
      s.graph.resolvable env.resolver.inlineNamedAny second)
    (hcarrier : s.graph.carrier first = s.graph.carrier second) (resolver : Resolver)
    (hint : Option String) :
    resolveBare resolver first hint env s = resolveBare resolver second hint env s := by
  have hgenerates : s.graph.generatesType env.resolver.inlineNamedAny first =
      s.graph.generatesType env.resolver.inlineNamedAny second := by
    simp only [Graph.generatesType, husage]
  rw [resolveBare, resolveBare, bind_ok get_apply, bind_ok read_apply, bind_ok get_apply,
    bind_ok read_apply]
  simp only [husage, hgenerates]
  cases s.wrapper? (s.graph.actual (s.graph.resolvable env.resolver.inlineNamedAny second)) with
  | some wrapper => rfl
  | none =>
    simp only
    split
    · rfl
    · split
      · rw [bind_apply, bind_apply, typeName_congr hcarrier]
      · rfl

end

section

variable {α β γ : Type} {env : Environment} {s t : Session}

/-- On the way from the first session to the second one this was the answer. -/
def Answered (env : Environment) (s t : Session) (x : SessionM α) (a : α) : Prop :=
  ∃ u v, Run env s u ∧ x env u = (.ok a, v) ∧ Run env v t

lemma Answered.mono {s' t' : Session} {x : SessionM α} {a : α} (h : Answered env s t x a)
    (hs : Run env s' s) (ht : Run env t t') : Answered env s' t' x a := by
  obtain ⟨u, v, hu, hx, hv⟩ := h
  exact ⟨u, v, hs.trans hu, hx, hv.trans ht⟩

/-- The same, while no other lists and dictionaries were being spelled out than at first. -/
def AnsweredInPlace (env : Environment) (s t : Session) (x : SessionM α) (a : α) : Prop :=
  ∃ u v, Run env s u ∧ u.expanding = s.expanding ∧ x env u = (.ok a, v) ∧ Run env v t

lemma answered_first {x : SessionM α} {a : α} {u : Session} (hx : x env s = (.ok a, u))
    (hrun : Run env u t) : Answered env s t x a :=
  ⟨s, u, .refl, hx, hrun⟩

/-- Different answers to a list of questions, in the order in which they first came. -/
def askDistinct (ask : β → SessionM TypeExpr) (found : List TypeExpr) :
    List β → SessionM (List TypeExpr)
  | [] => pure found
  | b :: rest => do askDistinct ask (TypeExpr.addDistinct found (← ask b)) rest

lemma resolveDistinct_eq (resolver : Resolver) (found : List TypeExpr)
    (usages : List (SchemaId × Bool)) :
    resolveDistinct resolver found usages =
      askDistinct (fun usage => resolver usage.1 usage.2 none) found usages := by
  induction usages generalizing found with
  | nil => rfl
  | cons usage rest ih => simp only [resolveDistinct, askDistinct, ih]; rfl

/-- An alternative that is nothing is null without being asked. -/
def askAlternative (resolver : Resolver) : Option SchemaId → SessionM TypeExpr
  | some id => resolver id false none
  | none => pure .null

lemma resolveAlternatives_eq (resolver : Resolver) (found : List TypeExpr)
    (alternatives : List (Option SchemaId)) :
    resolveAlternatives resolver found alternatives =
      askDistinct (askAlternative resolver) found alternatives := by
  induction alternatives generalizing found with
  | nil => rfl
  | cons alternative rest ih =>
    cases alternative with
    | none => simp only [resolveAlternatives, askDistinct, ih]; rfl
    | some id => simp only [resolveAlternatives, askDistinct, ih]; rfl

lemma askDistinct_map {δ : Type} (f : δ → β) (ask : β → SessionM TypeExpr) (found : List TypeExpr)
    (ds : List δ) : askDistinct ask found (ds.map f) = askDistinct (ask ∘ f) found ds := by
  induction ds generalizing found with
  | nil => rfl
  | cons d rest ih => simp only [List.map_cons, askDistinct, ih, Function.comp_apply]

section

variable {resolver : Resolver} {id : SchemaId}

lemma dictionaryValue_additional {additional : SchemaId}
    (h : (s.graph.node id).additional = some additional) :
    dictionaryValue resolver id env s =
      (resolveMember resolver additional >>= fun e => pure (some e)) env s := by
  rw [dictionaryValue, bind_ok graph_apply]
  simp only [h]

lemma dictionaryValue_patterns (hadditional : (s.graph.node id).additional = none)
    (hclosed : (s.graph.node id).closed) (hpatterns : (s.graph.node id).patterns ≠ []) :
    dictionaryValue resolver id env s =
      (askDistinct (fun pattern =>
          resolver pattern.2 (s.graph.isNullable env.resolver.dialect pattern.2) none)
          [] (s.graph.node id).patterns >>=
        fun es => pure (TypeExpr.single? es)) env s := by
  have hmany : (s.graph.node id).patterns.isEmpty = false := by simpa using hpatterns
  rw [dictionaryValue, bind_ok graph_apply]
  simp only [hadditional, hclosed, hmany, Bool.not_false, Bool.and_self, if_true]
  rw [bind_ok dialect_apply, resolveDistinct_eq, askDistinct_map]
  refine congrFun (congrFun (congrArg (askDistinct _ _ _ >>= ·) (funext fun es => ?_)) env) s
  rcases es with _ | ⟨e, _ | _⟩ <;> rfl

lemma dictionaryValue_open (hadditional : (s.graph.node id).additional = none)
    (h : ((s.graph.node id).closed && !(s.graph.node id).patterns.isEmpty) = false) :
    dictionaryValue resolver id env s = (.ok none, s) := by
  rw [dictionaryValue, bind_ok graph_apply]
  simp only [hadditional, h, Bool.false_eq_true, if_false, pure_apply]

end

lemma askDistinct_answered {ask : β → SessionM TypeExpr}
    (hask : ∀ b s, Leads env s (ask b) fun _ t => t.expanding = s.expanding)
    {found es : List TypeExpr} {bs : List β} (h : askDistinct ask found bs env s = (.ok es, t)) :
    Run env s t ∧ ∃ results, List.Forall₂ (fun b => AnsweredInPlace env s t (ask b)) bs results ∧
      es = results.foldl TypeExpr.addDistinct found := by
  induction bs generalizing s found with
  | nil =>
    cases h
    exact ⟨.refl, [], .nil, rfl⟩
  | cons b rest ih =>
    obtain ⟨e, u, he, hrest⟩ := bind_eq_ok h
    obtain ⟨hrun, results, hresults, heq⟩ := ih hrest
    obtain ⟨hfirst, hsame⟩ := (hask b s).result he
    refine ⟨hfirst.trans hrun, e :: results, .cons ⟨s, u, .refl, rfl, he, hrun⟩ ?_, heq⟩
    refine hresults.imp fun _ _ ⟨v, w, hv, hplace, hx, hw⟩ => ?_
    exact ⟨v, w, hfirst.trans hv, hplace.trans hsame, hx, hw⟩

/-- A resolver that goes by steps, and behind which the same is under way as before. -/
structure Proper (env : Environment) (resolver : Resolver) : Prop where
  spells : ∀ id nullable hint s, Spells env s (resolver id nullable hint)
  restores : ∀ id nullable hint s, Restores env s (resolver id nullable hint)

lemma resolveWithin_proper (env : Environment) (depth : ℕ) : Proper env (resolveWithin depth) :=
  ⟨fun id nullable hint _ => resolveWithin_spells depth id nullable hint,
    fun id nullable hint _ => resolveWithin_restores depth id nullable hint⟩

lemma resolve_proper (env : Environment) : Proper env SessionM.resolve :=
  ⟨fun id nullable hint _ => resolve_spells id nullable hint, resolve_restores⟩

lemma Proper.leads {resolver : Resolver} (h : Proper env resolver) (id : SchemaId)
    (nullable : Bool) (hint : Option String) (s : Session) :
    Leads env s (resolver id nullable hint) fun _ t => t.expanding = s.expanding :=
  ⟨(h.spells id nullable hint s).1, fun _ _ => congrArg Prod.snd (h.restores id nullable hint s)⟩

lemma spellUnion_answered {resolver : Resolver} (hresolve : Proper env resolver)
    {alternatives : List (Option SchemaId)} {e : TypeExpr}
    (h : spellUnion resolver alternatives env s = (.ok e, t)) :
    ∃ results, List.Forall₂ (fun alternative => AnsweredInPlace env s t
        (askAlternative resolver alternative)) alternatives results ∧
      e = .join results.eraseDups := by
  obtain ⟨es, u, hes, hpure⟩ := bind_eq_ok h
  cases hpure
  have hask (alternative : Option SchemaId) (s : Session) :
      Leads env s (askAlternative resolver alternative) fun _ t => t.expanding = s.expanding := by
    cases alternative with
    | none => exact .pure rfl
    | some id => exact hresolve.leads id false none s
  rw [resolveAlternatives_eq] at hes
  obtain ⟨_, results, hresults, rfl⟩ := askDistinct_answered hask hes
  exact ⟨results, hresults, by rw [TypeExpr.foldl_addDistinct]⟩

end

section

variable {α : Type} {env : Environment} {s t u : Session} {resolver resolver' : Resolver}
  {id : SchemaId} {e : TypeExpr} {hint : Option String}

lemma Asks.carries {ι : Type} {resolver : ι → Resolver} {x : ι → SessionM α} {i j : ι}
    (hx : Asks resolver x) (h : (resolver i).Carries env s (resolver j)) {a : α}
    (hu : Run env s u) (hi : x i env u = (.ok a, t)) : x j env u = (.ok a, t) ∧ Run env u t := by
  induction hx generalizing u t with
  | usage => exact h _ _ _ _ _ _ hu hi
  | pure =>
    cases hi
    exact ⟨rfl, .refl⟩
  | graph =>
    cases hi
    exact ⟨rfl, .refl⟩
  | read =>
    cases hi
    exact ⟨rfl, .refl⟩
  | bind _ _ ihx ihf =>
    obtain ⟨b, v, hb, hrest⟩ := bind_eq_ok hi
    obtain ⟨hb, hrun⟩ := ihx hu hb
    obtain ⟨hrest, hrun'⟩ := ihf b (hu.trans hrun) hrest
    exact ⟨(bind_ok hb).trans hrest, hrun.trans hrun'⟩

section

variable (h : resolver.Carries env s resolver')

include h

lemma carries_asks (x : Resolver → SessionM α) {a : α} (hu : Run env s u)
    (hx : Asks (fun first : Bool => if first then resolver else resolver') fun first =>
      x (if first then resolver else resolver'))
    (ha : x resolver env u = (.ok a, t)) : x resolver' env u = (.ok a, t) :=
  (hx.carries (i := true) (j := false) h hu ha).1

lemma answered_carries (x : Resolver → SessionM α) {a : α}
    (hx : Asks (fun first : Bool => if first then resolver else resolver') fun first =>
      x (if first then resolver else resolver'))
    (ha : Answered env s t (x resolver) a) : Answered env s t (x resolver') a := by
  obtain ⟨u, v, hu, ha, hv⟩ := ha
  exact ⟨u, v, hu, carries_asks h x hu hx ha, hv⟩

lemma answeredInPlace_carries (x : Resolver → SessionM α) {a : α}
    (hx : Asks (fun first : Bool => if first then resolver else resolver') fun first =>
      x (if first then resolver else resolver'))
    (ha : AnsweredInPlace env s t (x resolver) a) : AnsweredInPlace env s t (x resolver') a := by
  obtain ⟨u, v, hu, hsame, ha, hv⟩ := ha
  exact ⟨u, v, hu, hsame, carries_asks h x hu hx ha, hv⟩

lemma resolveContainer_carries (he : resolveContainer resolver id hint env s = (.ok e, t)) :
    resolveContainer resolver' id hint env s = (.ok e, t) := by
  cases hname : s.nameOf? id with
  | some name => rwa [resolveContainer_named hname] at he ⊢
  | none =>
    cases houter : s.expanding.lookup id with
    | some outer => rwa [resolveContainer_inside hname houter] at he ⊢
    | none =>
      rw [resolveContainer_entered hname houter] at he ⊢
      obtain ⟨e', u, hwithin, hnamed⟩ := bind_eq_ok he
      obtain ⟨v, hspelled, rfl⟩ := within_eq_ok hwithin
      have hspelled' := carries_asks h (spellContainer · id)
        (.single (.beginExpansion id hint)) (.spellContainer id) hspelled
      refine (bind_ok (t := v.endExpansion id) ?_).trans hnamed
      simp only [within, hspelled']

lemma resolveBare_carries (he : resolveBare resolver id hint env s = (.ok e, t)) :
    resolveBare resolver' id hint env s = (.ok e, t) := by
  cases route env s id hint with
  | wrapper _ _ heq => rwa [heq] at he ⊢
  | anything _ heq => rwa [heq] at he ⊢
  | named _ heq => rwa [heq] at he ⊢
  | container _ heq =>
    rw [heq] at he ⊢
    exact resolveContainer_carries h he
  | plain _ heq =>
    rw [heq] at he ⊢
    exact carries_asks h (resolvePlain · _) .refl (.resolvePlain _) he

end

/-- A greater bound on the nesting gives no other results. -/
lemma resolveWithin_carries {depth depth' : ℕ} (hdepth : depth ≤ depth') :
    (resolveWithin depth).Carries env s (resolveWithin depth') := by
  induction depth generalizing depth' with
  | zero =>
    intro u id nullable hint e v _ h
    cases h
  | succ depth ih =>
    obtain ⟨depth', rfl⟩ := Nat.exists_eq_add_of_le' (Nat.zero_lt_of_lt hdepth)
    intro u id nullable hint e v hu h
    have hspells : Spells env u (resolveWithin (depth + 1) id nullable hint) :=
      resolveWithin_spells (depth + 1) id nullable hint
    refine ⟨?_, (hspells.result h).1⟩
    obtain ⟨bare, w, hbare, hspelled⟩ := bind_eq_ok h
    have hcarry : (resolveWithin depth).Carries env u (resolveWithin depth') :=
      fun _ _ _ _ _ _ hw => ih (Nat.le_of_succ_le_succ hdepth) _ _ _ _ _ _ (hu.trans hw)
    exact (bind_ok (resolveBare_carries hcarry hbare)).trans hspelled

lemma resolve_of_resolveWithin {depth : ℕ}
    (hdepth : depth ≤ (s.graph.size + 2) * (s.graph.size + 2)) :
    (resolveWithin depth).Carries env s SessionM.resolve := by
  intro u id nullable hint e v hu h
  have hsize := hu.size_le
  have hbound : depth ≤ (u.graph.size + 2) * (u.graph.size + 2) :=
    hdepth.trans (Nat.mul_le_mul (by omega) (by omega))
  have hcarry : (resolveWithin depth).Carries env s (resolveWithin _) :=
    resolveWithin_carries hbound
  obtain ⟨hresolve, hrun⟩ := hcarry u id nullable hint e v hu h
  exact ⟨(bind_ok graph_apply).trans hresolve, hrun⟩

/-- A usage is resolved with some bound on the usages inside, and then null is added. -/
lemma resolve_eq_bare (env : Environment) (s : Session) :
    ∃ depth ≤ (s.graph.size + 2) * (s.graph.size + 2), ∀ id nullable hint,
      SessionM.resolve id nullable hint env s =
        (resolveBare (resolveWithin depth) id hint >>= spellNullable nullable) env s := by
  obtain ⟨depth, hdepth⟩ : ∃ depth, (s.graph.size + 2) * (s.graph.size + 2) = depth + 1 :=
    Nat.exists_eq_add_one.mpr (Nat.mul_pos (Nat.succ_pos _) (Nat.succ_pos _))
  refine ⟨depth, by omega, fun id nullable hint => ?_⟩
  rw [SessionM.resolve, bind_ok graph_apply, hdepth, resolveWithin]

end

end SessionM

end SchemaTypes
