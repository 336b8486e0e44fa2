import SchemaTypes.Proofs.Naming
import SchemaTypes.Proofs.Session.Calls
import SchemaTypes.Proofs.TypeScript.Asking

/-! Where failures come from. Apart from a bound that is too small there is one source of them: the
name that the generator gives to a schema without one is refused. -/

namespace SchemaTypes

namespace Session

/-- What becomes of a request that does not give a name: the generator fails, or its answer is no
identifier, or it is taken. -/
inductive Refused (env : Environment) (s : Session) (id : SchemaId) (hint : Option String) :
    NamingError → Prop
  | answer {e : NamingError} (h : env.generator (s.request id hint) = .error e) :
      Refused env s id hint e
  | identifier {name : String} (h : env.generator (s.request id hint) = .ok name)
      (invalid : Text.isIdentifier name = false) : Refused env s id hint (.invalidIdentifier name)
  | collision {name : String} (h : env.generator (s.request id hint) = .ok name)
      (valid : Text.isIdentifier name) (taken : name ∈ s.taken) :
      Refused env s id hint (.collision name)

/-- The failures that the steps from a session may come to. -/
inductive Fails (env : Environment) (s : Session) : Failure → Prop
  | exhausted : Fails env s .exhausted
  | refused {t : Session} (hrun : Run env s t) {id : SchemaId} (unnamed : t.nameOf? id = none)
      {hint : Option String} {e : NamingError} (h : t.Refused env id hint e) :
      Fails env s (.naming e)

lemma refused_or_named (env : Environment) (s : Session) (id : SchemaId) (hint : Option String) :
    (∃ e, s.Refused env id hint e) ∨ ∃ name, env.generator (s.request id hint) = .ok name ∧
      Text.isIdentifier name ∧ name ∉ s.taken := by
  cases hanswer : env.generator (s.request id hint) with
  | error e => exact .inl ⟨e, .answer hanswer⟩
  | ok name =>
    cases valid : Text.isIdentifier name with
    | false => exact .inl ⟨_, .identifier hanswer valid⟩
    | true =>
      by_cases taken : name ∈ s.taken
      · exact .inl ⟨_, .collision hanswer valid taken⟩
      · exact .inr ⟨name, rfl, valid, taken⟩

lemma Fails.earlier {env : Environment} {s t : Session} {f : Failure} (h : Fails env t f)
    (hrun : Run env s t) : Fails env s f := by
  cases h with
  | exhausted => exact .exhausted
  | refused hrun' unnamed h => exact .refused (hrun.trans hrun') unnamed h

end Session

namespace SessionM

open Session (Run Fails Refused)

variable {α β : Type} {env : Environment} {s : Session}

lemma assign_refused {id : SchemaId} {hint : Option String} {e : NamingError}
    (unnamed : s.nameOf? id = none) (h : s.Refused env id hint e) :
    assign id hint env s = (.error (.naming e), { s with requests := s.requests + 1 }) := by
  rw [assign, bind_ok get_apply]
  simp only [unnamed]
  rw [bind_ok (set_apply _), bind_ok read_apply]
  cases h with
  | answer h => simp only [h, throw_apply]
  | identifier h invalid => simp [h, invalid]
  | collision h valid taken => simp [h, valid, taken]

lemma assign_fails {id : SchemaId} {hint : Option String} {f : Failure}
    (h : (assign id hint env s).1 = .error f) :
    s.nameOf? id = none ∧ ∃ e, f = .naming e ∧ s.Refused env id hint e := by
  cases hname : s.nameOf? id with
  | some name =>
    rw [assign_named hname] at h
    cases h
  | none =>
    refine ⟨rfl, ?_⟩
    rcases s.refused_or_named env id hint with ⟨e, hrefused⟩ | ⟨name, hanswer, valid, free⟩
    · rw [assign_refused hname hrefused] at h
      cases h
      exact ⟨e, rfl, hrefused⟩
    · rcases assign_unnamed hname hint with ⟨_, _, hnone⟩ | ⟨_, heq, _⟩
      · rcases hnone name hanswer with invalid | taken
        · cases valid.symm.trans invalid
        · exact absurd taken free
      · rw [heq] at h
        cases h

/-- The action goes by steps, and it fails only as steps may. -/
def Reports (env : Environment) (s : Session) (x : SessionM α) : Prop :=
  Run env s (x env s).2 ∧ ∀ f, (x env s).1 = .error f → Fails env s f

namespace Reports

variable {x : SessionM α} {f : α → SessionM β}

lemma pure (a : α) : Reports env s (pure a) := ⟨.refl, fun _ h => by cases h⟩

lemma exhausted : Reports env s (throw .exhausted : SessionM α) :=
  ⟨.refl, fun _ h => by cases h; exact .exhausted⟩

lemma bind (hx : Reports env s x) (hf : ∀ a t, Reports env t (f a)) :
    Reports env s (x >>= f) := by
  obtain ⟨hrun, hfails⟩ := hx
  rw [Reports, bind_apply]
  rcases hxs : x env s with ⟨e | a, t⟩
  · rw [hxs] at hrun hfails
    exact ⟨hrun, fun f hf => by cases hf; exact hfails e rfl⟩
  · rw [hxs] at hrun
    obtain ⟨hrun', hfails'⟩ := hf a t
    exact ⟨hrun.trans hrun', fun e he => (hfails' e he).earlier hrun⟩

lemma look {a : α} (hx : x env s = (.ok a, s)) (hf : Reports env s (f a)) :
    Reports env s (x >>= f) := by
  rw [Reports, bind_ok hx]
  exact hf

lemma discard (h : Reports env s x) : Reports env s (discard x) := by
  rw [discard_eq_bind]
  exact h.bind fun _ _ => .pure _

lemma within {enter leave : Session → Session} (henter : Session.Step env s (enter s))
    (hleave : ∀ t, Session.Step env t (leave t)) (hx : Reports env (enter s) x) :
    Reports env s (within enter leave x) :=
  ⟨(hx.1.head henter).tail (hleave _), fun e he => (hx.2 e he).earlier (.single henter)⟩

/-- What only asks how usages are spelled fails as the answers do. -/
lemma asks {ι : Type} {resolver : ι → Resolver} {x : ι → SessionM α}
    (hresolver : ∀ i id nullable hint t, Reports env t (resolver i id nullable hint))
    (hx : Asks resolver x) (i : ι) : Reports env s (x i) := by
  induction hx generalizing s with
  | usage id nullable hint => exact hresolver i id nullable hint s
  | pure a => exact .pure a
  | graph | read => exact ⟨.refl, fun _ h => by cases h⟩
  | bind _ _ ihx ihf => exact ihx.bind fun a _ => ihf a

end Reports

lemma assign_reports (id : SchemaId) (hint : Option String) : Reports env s (assign id hint) := by
  refine ⟨(assign_leads id hint).1, fun f h => ?_⟩
  obtain ⟨unnamed, e, rfl, hrefused⟩ := assign_fails h
  exact .refused .refl unnamed hrefused

lemma registerEach_reports {name : SchemaId → Option String → SessionM String}
    (hname : ∀ id hint t, Reports env t (name id hint)) (definitions : List (String × SchemaId)) :
    Reports env s (registerEach name definitions) := by
  induction definitions generalizing s with
  | nil => exact .pure _
  | cons entry rest ih =>
    obtain ⟨key, definition⟩ := entry
    refine .look graph_apply (.look (isDefinitionType_apply _) ?_)
    split
    · rename_i hdef
      have hprepare : Reports env s (prepare (s.graph.actual definition)) :=
        ⟨(prepare_leads hdef).1, fun _ h => by cases h⟩
      exact hprepare.bind fun target t => (hname target _ t).discard.bind fun _ _ => ih
    · exact ih

lemma typeNameWithin_reports (depth : ℕ) (id : SchemaId) (hint : Option String) :
    Reports env s (typeNameWithin depth id hint) := by
  induction depth generalizing id hint s with
  | zero => exact .exhausted
  | succ depth ih =>
    refine .look get_apply ?_
    cases h : s.nameOf? (s.graph.actual (s.graph.removeNullability id)) with
    | some name =>
      simp only [h]
      exact .pure name
    | none =>
      simp only [h]
      split
      · rename_i hfree
        refine Reports.bind (.within (.beginRegistration _ (by simpa using hfree))
          (fun _ => .endRegistration _) ?_) fun _ _ => assign_reports _ hint
        exact registerEach_reports (fun id hint _ => ih id hint) _
      · exact assign_reports _ hint

lemma typeName_reports (id : SchemaId) (hint : Option String) :
    Reports env s (typeName id hint) :=
  .look graph_apply (typeNameWithin_reports _ id hint)

lemma register_reports (definitions : List (String × SchemaId)) :
    Reports env s (register definitions) :=
  registerEach_reports (fun id hint _ => typeName_reports id hint) definitions

section

variable {resolve : Resolver}
  (hresolve : ∀ id nullable hint t, Reports env t (resolve id nullable hint))

include hresolve

lemma asks_reports {x : SessionM α} (hx : Asks (fun _ : Unit => resolve) fun _ => x) :
    Reports env s x :=
  .asks (fun _ => hresolve) hx ()

lemma resolveContainer_reports (id : SchemaId) (hint : Option String) :
    Reports env s (resolveContainer resolve id hint) := by
  refine .look get_apply ?_
  split
  · exact .pure _
  · exact (typeName_reports id _).bind fun _ _ => .pure _
  · have hspell : Reports env (s.beginExpansion id hint) (spellContainer resolve id) :=
      asks_reports hresolve (.spellContainer id)
    refine (Reports.within (.beginExpansion id hint) (fun _ => .endExpansion id) hspell).bind
      fun _ _ => .look get_apply ?_
    split <;> exact .pure _

lemma resolveBare_reports (id : SchemaId) (hint : Option String) :
    Reports env s (resolveBare resolve id hint) := by
  have hname (id : SchemaId) : Reports env s (TypeExpr.ident <$> typeName id hint) := by
    rw [map_eq_pure_bind]
    exact (typeName_reports id hint).bind fun _ _ => .pure _
  refine .look get_apply (.look read_apply ?_)
  simp only
  split
  · exact hname _
  · split
    · exact .pure _
    · split
      · exact hname _
      · split
        · exact resolveContainer_reports hresolve _ hint
        · exact asks_reports hresolve (.resolvePlain _)

end

lemma resolveWithin_reports (depth : ℕ) (id : SchemaId) (nullable : Bool) (hint : Option String) :
    Reports env s (resolveWithin depth id nullable hint) := by
  induction depth generalizing id nullable hint s with
  | zero => exact .exhausted
  | succ depth ih =>
    have hresolve (id nullable hint) (t : Session) := @ih t id nullable hint
    refine (resolveBare_reports hresolve id hint).bind fun e _ => ?_
    exact asks_reports hresolve (.spellNullable nullable e)

lemma resolve_reports (id : SchemaId) (nullable : Bool) (hint : Option String) (s : Session) :
    Reports env s (resolve id nullable hint) :=
  .look graph_apply (resolveWithin_reports _ id nullable hint)

lemma collectParts_reports (parts : Parts) (ids : List SchemaId) :
    Reports env s (collectParts parts ids) := by
  induction ids generalizing s parts with
  | nil => exact .pure _
  | cons id rest ih =>
    refine .look graph_apply ?_
    simp only
    split
    · exact (typeName_reports id none).bind fun _ _ => ih _
    · exact ih _

lemma declareInterface_reports (id : SchemaId) (name : String) :
    Reports env s (declareInterface id name) := by
  refine .look graph_apply ((collectParts_reports _ _).bind fun _ t => ?_)
  have hfields {discriminator : Option (Discriminator SchemaId)} {required : List String}
      {properties : List (String × SchemaId)} :
      Reports env t (declareFields discriminator required properties) :=
    asks_reports resolve_reports (.declareFields (fun _ => rfl) _ _ _)
  exact hfields.bind fun _ _ => .pure _

lemma declare_reports (id : SchemaId) (name : String) : Reports env s (declare id name) := by
  have hchoice (choice : Choice) : Reports env s (declareChoice choice) :=
    asks_reports resolve_reports (.declareChoice (fun _ => rfl) choice)
  refine .look get_apply ?_
  simp only
  split
  · exact hchoice _
  · split
    · exact hchoice _
    · split
      · exact .pure _
      · split
        · have hspell : Reports env (s.beginExpansion id none) (spellContainer resolve id) :=
            asks_reports resolve_reports (.spellContainer id)
          exact (Reports.within (.beginExpansion id none) (fun _ => .endExpansion id) hspell).bind
            fun _ _ => .pure _
        · split
          · exact .pure _
          · exact declareInterface_reports id name

lemma declarationsWithin_reports (bound position : ℕ) :
    Reports env s (declarationsWithin bound position) := by
  induction bound generalizing s position with
  | zero => exact .exhausted
  | succ bound ih =>
    refine .look get_apply ?_
    split
    · exact .pure _
    · exact (declare_reports _ _).bind fun _ _ => (ih _).bind fun _ _ => .pure _

lemma emit_reports : Reports env s emit :=
  .look read_apply (Reports.bind (.look graph_apply (declarationsWithin_reports _ 0))
    fun _ _ => .pure _)

end SessionM

open SessionM

lemma Call.run_reports {env : Environment} {s : Session} (call : Call) :
    Reports env s call.run := by
  cases call with
  | typeName id hint => exact (typeName_reports id hint).discard
  | register definitions => exact register_reports definitions
  | resolve id nullable hint => exact (resolve_reports id nullable hint s).discard
  | dictionaryKey id => exact (asks_reports resolve_reports (.dictionaryKey id)).discard
  | dictionaryValue id => exact (asks_reports resolve_reports (.dictionaryValue id)).discard
  | variants choice =>
    have hvariants : Reports env s (SessionM.variants choice) :=
      .look graph_apply (asks_reports resolve_reports (.resolveVariants (fun _ => rfl) _))
    exact hvariants.discard
  | emit => exact emit_reports.discard

lemma Document.emit_reports {env : Environment} {s : Session} (d : Document) :
    Reports env s d.emit := by
  have hroot {t : Session} : Reports env t (do
      if (← isDefinitionType d.root) && !((← SessionM.graph).node d.root).isAny then
        discard (typeName d.root (some (← read).typescript.rootName))) := by
    refine .look (isDefinitionType_apply d.root) (.look graph_apply ?_)
    split
    · exact .look read_apply (typeName_reports _ _).discard
    · exact .pure _
  have hregister : Reports env s d.register :=
    (SessionM.register_reports d.definitions).bind fun _ _ => hroot
  exact hregister.bind fun _ _ => SessionM.emit_reports.bind fun _ _ => .pure _

end SchemaTypes
