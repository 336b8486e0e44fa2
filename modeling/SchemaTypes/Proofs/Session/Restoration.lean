import SchemaTypes.Proofs.Session.Operations

/-! What is remembered as under way is forgotten where it is left, also where it fails. -/

namespace SchemaTypes

/-- What a session remembers as under way: registrations, and lists and dictionaries spelled out. -/
def Session.underWay (s : Session) : List SchemaId × List (SchemaId × Option String) :=
  (s.registering, s.expanding)

lemma Session.prepare_underWay (s : Session) (id : SchemaId) :
    (s.prepare id).2.underWay = s.underWay :=
  prepare_keeps underWay (fun _ _ _ _ _ => rfl) s id

namespace SessionM

variable {α β : Type} {env : Environment} {s : Session}

/-- With a result or without one, nothing else is under way after the action than before it. -/
def Restores (env : Environment) (s : Session) (x : SessionM α) : Prop :=
  (x env s).2.underWay = s.underWay

namespace Restores

variable {x : SessionM α} {f : α → SessionM β}

lemma pure (a : α) : Restores env s (pure a) := rfl

lemma throw (e : Failure) : Restores env s (throw e : SessionM α) := rfl

lemma bind (hx : Restores env s x)
    (hf : ∀ a t, t.underWay = s.underWay → Restores env t (f a)) : Restores env s (x >>= f) := by
  unfold Restores at hx ⊢
  rw [bind_apply]
  rcases h : x env s with ⟨e | a, t⟩
  · rwa [h] at hx
  · rw [h] at hx
    exact (hf a t hx).trans hx

lemma look {a : α} (hx : x env s = (.ok a, s)) (hf : Restores env s (f a)) :
    Restores env s (x >>= f) := by
  rw [Restores, bind_ok hx]
  exact hf

lemma discard (h : Restores env s x) : Restores env s (discard x) := by
  rw [discard_eq_bind]
  exact h.bind fun _ _ _ => .pure _

/-- Leaving a registration takes away the first entry for the schema, and that is the one made on
entering; so a schema may be entered again while it is registered. -/
lemma registration {id : SchemaId} (hx : Restores env (s.beginRegistration id) x) :
    Restores env s (within (·.beginRegistration id) (·.endRegistration id) x) := by
  obtain ⟨hregistering, hexpanding⟩ := Prod.mk.inj hx
  refine Prod.ext ?_ hexpanding
  change (x env (s.beginRegistration id)).2.registering.erase id = s.registering
  rw [hregistering, Session.beginRegistration, List.erase_cons_head]

/-- Leaving a container takes away every entry for it, so there may be none on entering. -/
lemma expansion {id : SchemaId} {hint : Option String} (hid : id ∉ s.expanding.map (·.1))
    (hx : Restores env (s.beginExpansion id hint) x) :
    Restores env s (within (·.beginExpansion id hint) (·.endExpansion id) x) := by
  obtain ⟨hregistering, hexpanding⟩ := Prod.mk.inj hx
  refine Prod.ext hregistering ?_
  change (x env (s.beginExpansion id hint)).2.expanding.filter (·.1 != id) = s.expanding
  rw [hexpanding, Session.beginExpansion, Entries.filter_cons_self hid]

end Restores

lemma assign_restores (id : SchemaId) (hint : Option String) : Restores env s (assign id hint) :=
  assign_keeps Session.underWay (fun _ _ _ _ => rfl) id hint

lemma registerEach_restores {name : SchemaId → Option String → SessionM String}
    (hname : ∀ id hint t, Restores env t (name id hint)) (definitions : List (String × SchemaId)) :
    Restores env s (registerEach name definitions) := by
  induction definitions generalizing s with
  | nil => exact .pure _
  | cons entry rest ih =>
    obtain ⟨key, definition⟩ := entry
    apply Restores.look graph_apply
    apply Restores.look (isDefinitionType_apply _)
    split
    · have hprepare : Restores env s (prepare (s.graph.actual definition)) :=
        s.prepare_underWay (s.graph.actual definition)
      exact hprepare.bind fun target t _ => (hname target _ t).discard.bind fun _ _ _ => ih
    · exact ih

lemma typeNameWithin_restores (depth : ℕ) (id : SchemaId) (hint : Option String) :
    Restores env s (typeNameWithin depth id hint) := by
  induction depth generalizing id hint s with
  | zero => exact .throw _
  | succ depth ih =>
    apply Restores.look get_apply
    cases h : s.nameOf? (s.graph.actual (s.graph.removeNullability id)) with
    | some name =>
      simp only [h]
      exact .pure name
    | none =>
      simp only [h]
      split
      · refine Restores.bind (.registration ?_) fun _ t _ => assign_restores _ hint
        exact registerEach_restores (fun id hint _ => ih id hint) _
      · exact assign_restores _ hint

lemma typeName_restores (id : SchemaId) (hint : Option String) :
    Restores env s (typeName id hint) :=
  .look graph_apply (typeNameWithin_restores _ id hint)

lemma register_restores (definitions : List (String × SchemaId)) :
    Restores env s (register definitions) :=
  registerEach_restores (fun id hint _ => typeName_restores id hint) definitions

end SessionM

end SchemaTypes
