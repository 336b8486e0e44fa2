import SchemaTypes.Proofs.Session.Naming

/-! What the operations that name schemas do: they go by steps, and the name that they return is
from then on the name of the schema behind the one that was asked for. -/

namespace SchemaTypes

/-- The schema that is named when a name is asked for: without nullability, behind references. -/
def Graph.carrier (g : Graph) (id : SchemaId) : SchemaId := g.actual (g.removeNullability id)

namespace SessionM

variable {env : Environment} {s t : Session}

lemma assign_named {id : SchemaId} {name : String} (h : s.nameOf? id = some name)
    (hint : Option String) : assign id hint env s = (.ok name, s) := by
  rw [assign, bind_ok get_apply]
  simp only [h, pure_apply]

lemma assign_unnamed {id : SchemaId} (h : s.nameOf? id = none) (hint : Option String) :
    (∃ e : NamingError,
      assign id hint env s = (.error (.naming e), { s with requests := s.requests + 1 }) ∧
      ∀ name, env.generator (s.request id hint) = .ok name →
        Text.isIdentifier name = false ∨ name ∈ s.taken) ∨
    ∃ name, assign id hint env s =
        (.ok name, ({ s with requests := s.requests + 1 } : Session).give id name) ∧
      env.generator (s.request id hint) = .ok name ∧ Text.isIdentifier name ∧ name ∉ s.taken := by
  rw [assign, bind_ok get_apply]
  simp only [h]
  rw [bind_ok (set_apply _), bind_ok read_apply]
  cases hg : env.generator (s.request id hint) with
  | error e => exact .inl ⟨e, rfl, by simp⟩
  | ok name =>
    by_cases valid : Text.isIdentifier name
    · by_cases taken : name ∈ s.taken
      · refine .inl ⟨.collision name, ?_, by simp [taken]⟩
        simp [valid, taken]
      · refine .inr ⟨name, ?_, rfl, valid, taken⟩
        simp only [valid, taken, List.contains_eq_mem, decide_false, Bool.not_true,
          Bool.false_eq_true, if_false]
        rw [bind_ok (modify_apply _), pure_apply]
    · refine .inl ⟨.invalidIdentifier name, ?_, by simp [valid]⟩
      simp [valid]

lemma nameOf?_give {id : SchemaId} (h : s.nameOf? id = none) (name : String) :
    (s.give id name).nameOf? id = some name := by
  simp only [Session.nameOf?, Session.give] at h ⊢
  rw [List.lookup_append, h, Option.none_or, List.lookup_cons_self]

lemma nameOf?_of_give {id other : SchemaId} {name name' : String} (hne : other ≠ id)
    (h : (s.give id name).nameOf? other = some name') : s.nameOf? other = some name' := by
  have hbeq : (other == id) = false := beq_false_of_ne hne
  rw [Session.nameOf?, Session.give, List.lookup_append, List.lookup_cons, hbeq, List.lookup_nil,
    Option.or_none] at h
  exact h

lemma assign_eq_ok {id : SchemaId} {hint : Option String} {name : String}
    (h : assign id hint env s = (.ok name, t)) :
    (s.nameOf? id = some name ∧ t = s) ∨
      s.nameOf? id = none ∧ t = ({ s with requests := s.requests + 1 } : Session).give id name := by
  cases hname : s.nameOf? id with
  | some name' =>
    rw [assign_named hname] at h
    cases h
    exact .inl ⟨rfl, rfl⟩
  | none =>
    rcases @assign_unnamed env s id hname hint with ⟨e, heq, _⟩ | ⟨name', heq, _⟩
    · rw [heq] at h
      cases h
    · rw [heq] at h
      cases h
      exact .inr ⟨rfl, rfl⟩

lemma assign_keeps {β : Type} (p : Session → β)
    (hp : ∀ (s : Session) types taken requests, p { s with types, taken, requests } = p s)
    (id : SchemaId) (hint : Option String) : p (assign id hint env s).2 = p s := by
  cases hname : s.nameOf? id with
  | some name => rw [assign_named hname]
  | none =>
    rcases @assign_unnamed env s id hname hint with ⟨e, heq, _⟩ | ⟨name, heq, _⟩
    · rw [heq]
      exact hp s s.types s.taken _
    · rw [heq]
      exact hp s _ _ _

lemma assign_leads (id : SchemaId) (hint : Option String) :
    Leads env s (assign id hint) fun name t => t.nameOf? id = some name := by
  cases h : s.nameOf? id with
  | some name =>
    rw [Leads, assign_named h]
    exact ⟨.refl, fun a ha => by simpa [h] using ha⟩
  | none =>
    rcases assign_unnamed h hint with ⟨e, heq, hg⟩ | ⟨name, heq, hg, valid, free⟩
    · rw [Leads, heq]
      exact ⟨.single (.refuse id hint h hg), fun a ha => by simp at ha⟩
    · rw [Leads, heq]
      refine ⟨.single (.name id hint name h hg valid free), fun a ha => ?_⟩
      cases ha
      exact nameOf?_give (by exact h) name

lemma prepare_leads {id : SchemaId}
    (h : s.graph.isDefinitionType env.resolver.inlineNamedAny id) :
    Leads env s (prepare id) fun target t => s.prepare id = (target, t) := by
  rw [Leads, prepare_apply]
  exact ⟨.single (.prepare id h), fun a ha => by cases ha; rfl⟩

lemma registerEach_leads {name : SchemaId → Option String → SessionM String}
    (hname : ∀ id hint s, Leads env s (name id hint) fun _ _ => True)
    (definitions : List (String × SchemaId)) :
    Leads env s (registerEach name definitions) fun _ _ => True := by
  induction definitions generalizing s with
  | nil => exact .pure trivial
  | cons entry rest ih =>
    obtain ⟨key, definition⟩ := entry
    refine .look graph_apply (.look (isDefinitionType_apply _) ?_)
    split
    · rename_i hdef
      refine (prepare_leads hdef).bind fun target t _ _ => ?_
      exact (hname target (some key) t).discard.bind fun _ u _ _ => ih
    · exact ih

lemma typeNameWithin_leads (depth : ℕ) (id : SchemaId) (hint : Option String) :
    Leads env s (typeNameWithin depth id hint) fun name t =>
      t.nameOf? (s.graph.carrier id) = some name := by
  induction depth generalizing id hint s with
  | zero => exact .throw
  | succ depth ih =>
    refine .look get_apply ?_
    cases h : s.nameOf? (s.graph.actual (s.graph.removeNullability id)) with
    | some name =>
      simp only [h]
      exact .pure h
    | none =>
      simp only [h]
      split
      · -- Which schema gets the name is settled before its definitions are registered.
        rename_i hfree
        refine Leads.bind (Q := fun _ _ => True) ?_ fun _ t _ _ => assign_leads _ hint
        refine Leads.within (.beginRegistration _ (by simpa using hfree))
          (fun _ => .endRegistration _) ?_ fun _ _ _ => trivial
        exact registerEach_leads (fun id hint s => (ih id hint).forget) _
      · exact assign_leads _ hint

/-- A schema has a name, or it gets one after its definitions have been registered, unless they are
being registered already. -/
lemma typeNameWithin_eq_ok {depth : ℕ} {id : SchemaId} {hint : Option String} {name : String}
    (h : typeNameWithin (depth + 1) id hint env s = (.ok name, t)) :
    (s.nameOf? (s.graph.carrier id) = some name ∧ t = s) ∨
      ∃ u, ((s.graph.carrier id ∈ s.registering ∧ u = s) ∨
          s.graph.carrier id ∉ s.registering ∧ ∃ v,
            registerEach (typeNameWithin depth) (s.graph.node (s.graph.carrier id)).definitions env
              (s.beginRegistration (s.graph.carrier id)) = (.ok (), v) ∧
            u = v.endRegistration (s.graph.carrier id)) ∧
        assign (s.graph.carrier id) hint env u = (.ok name, t) := by
  rw [typeNameWithin, bind_ok get_apply] at h
  rw [Graph.carrier]
  generalize s.graph.actual (s.graph.removeNullability id) = schema at h ⊢
  cases hname : s.nameOf? schema with
  | some name' =>
    simp only [hname] at h
    cases h
    exact .inl ⟨rfl, rfl⟩
  | none =>
    right
    simp only [hname] at h
    split at h
    · rename_i hfree
      obtain ⟨_, u, hregister, hassign⟩ := bind_eq_ok h
      obtain ⟨v, hwithin, rfl⟩ := within_eq_ok hregister
      exact ⟨_, .inr ⟨by simpa using hfree, v, hwithin, rfl⟩, hassign⟩
    · rename_i hbusy
      exact ⟨s, .inl ⟨by simpa using hbusy, rfl⟩, h⟩

lemma typeNameWithin_leaf {depth : ℕ} {id : SchemaId} {hint : Option String}
    (h : (s.graph.node (s.graph.carrier id)).definitions = []) :
    typeNameWithin (depth + 1) id hint env s = assign (s.graph.carrier id) hint env s := by
  rw [typeNameWithin, bind_ok get_apply]
  rw [Graph.carrier] at h ⊢
  generalize s.graph.actual (s.graph.removeNullability id) = schema at h ⊢
  cases hname : s.nameOf? schema with
  | some name => simp only [assign_named hname, pure_apply]
  | none =>
    simp only [h]
    split
    · have hwithin : within (·.beginRegistration schema) (·.endRegistration schema)
          (registerEach (typeNameWithin depth) []) env s = (.ok (), s) := by
        rw [within, registerEach, pure_apply]
        simp [Session.beginRegistration, Session.endRegistration]
      exact bind_ok hwithin
    · rfl

lemma typeName_leads (id : SchemaId) (hint : Option String) :
    Leads env s (typeName id hint) fun name t =>
      t.nameOf? (s.graph.carrier id) = some name :=
  .look graph_apply (typeNameWithin_leads _ id hint)

lemma typeName_named {id : SchemaId} {name : String}
    (h : s.nameOf? (s.graph.carrier id) = some name) (hint : Option String) :
    typeName id hint env s = (.ok name, s) := by
  have hname : s.nameOf? (s.graph.actual (s.graph.removeNullability id)) = some name := h
  rw [typeName, bind_ok graph_apply, typeNameWithin, bind_ok get_apply]
  simp only [hname]
  exact pure_apply name

lemma register_leads (definitions : List (String × SchemaId)) :
    Leads env s (register definitions) fun _ _ => True :=
  registerEach_leads (fun id hint _ => (typeName_leads id hint).forget) definitions

variable {name : SchemaId → Option String → SessionM String} {key : String} {id : SchemaId}
  {rest : List (String × SchemaId)}

lemma registerEach_passed
    (h : s.graph.isDefinitionType env.resolver.inlineNamedAny (s.graph.actual id) = false) :
    registerEach name ((key, id) :: rest) env s = registerEach name rest env s := by
  rw [registerEach, bind_ok graph_apply, bind_ok (isDefinitionType_apply _), h]
  rfl

lemma registerEach_named
    (h : s.graph.isDefinitionType env.resolver.inlineNamedAny (s.graph.actual id)) :
    registerEach name ((key, id) :: rest) env s =
      (name (s.prepare (s.graph.actual id)).1 (some key) >>= fun _ => registerEach name rest)
        env (s.prepare (s.graph.actual id)).2 := by
  rw [registerEach, bind_ok graph_apply, bind_ok (isDefinitionType_apply _), h]
  simp only [if_true, bind_ok (prepare_apply _), discard_eq_bind]
  rw [bind_apply, bind_apply, bind_apply]
  rcases name (s.prepare (s.graph.actual id)).1 (some key) env (s.prepare (s.graph.actual id)).2
    with ⟨_ | _, _⟩ <;> rfl

lemma registerEach_append {first later : List (String × SchemaId)} {u : Session}
    (h : registerEach name (first ++ later) env s = (.ok (), u)) :
    ∃ t, registerEach name first env s = (.ok (), t) ∧
      registerEach name later env t = (.ok (), u) := by
  induction first generalizing s with
  | nil => exact ⟨s, rfl, h⟩
  | cons entry first ih =>
    obtain ⟨key, id⟩ := entry
    rw [List.cons_append] at h
    cases hdef : s.graph.isDefinitionType env.resolver.inlineNamedAny (s.graph.actual id) with
    | false =>
      rw [registerEach_passed hdef] at h ⊢
      exact ih h
    | true =>
      rw [registerEach_named hdef] at h ⊢
      obtain ⟨n, t, hname, h⟩ := bind_eq_ok h
      rw [bind_ok hname]
      exact ih h

lemma registerEach_keeps {J : Session → Prop} {definitions : List (String × SchemaId)}
    (hname : ∀ key id s n t, (key, id) ∈ definitions → J s →
      s.graph.isDefinitionType env.resolver.inlineNamedAny (s.graph.actual id) →
      name (s.prepare (s.graph.actual id)).1 (some key) env (s.prepare (s.graph.actual id)).2 =
        (.ok n, t) → J t)
    (hs : J s) (h : registerEach name definitions env s = (.ok (), t)) : J t := by
  induction definitions generalizing s with
  | nil =>
    cases h
    exact hs
  | cons entry rest ih =>
    obtain ⟨key, id⟩ := entry
    have hrest := fun key id s n t hmem =>
      hname key id s n t (List.mem_cons_of_mem _ hmem)
    cases hdef : s.graph.isDefinitionType env.resolver.inlineNamedAny (s.graph.actual id) with
    | false =>
      rw [registerEach_passed hdef] at h
      exact ih hrest hs h
    | true =>
      rw [registerEach_named hdef] at h
      obtain ⟨n, u, hnamed, hlater⟩ := bind_eq_ok h
      exact ih hrest (hname key id s n u List.mem_cons_self hs hdef hnamed) hlater

end SessionM

end SchemaTypes
