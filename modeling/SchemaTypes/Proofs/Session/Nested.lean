import SchemaTypes.Proofs.Session.Steady

/-! The definitions that a schema declares. They are prepared when the schema is named, and while
that goes on the schema is among those that are being registered. -/

namespace SchemaTypes

lemma Graph.wrapChoice_ne_none {g : Graph} {id : SchemaId}
    (hdiscriminator : (g.node id).discriminator ≠ none) (hone : (g.node id).oneOf ≠ []) :
    g.wrapChoice id ≠ none := by
  obtain ⟨d, hd⟩ := Option.ne_none_iff_exists'.mp hdiscriminator
  have hactual : g.actualDiscriminator id = some d := by
    rw [actualDiscriminator, hd]
    rfl
  simp [wrapChoice, hactual, hone]

namespace Session

variable {env : Environment} {s t : Session} {g : Graph} {id : SchemaId} {inlineNamedAny : Bool}
  {definition : SchemaId}

/-- What lies behind the definition has been prepared, if it gets a type. -/
def Attended (g : Graph) (inlineNamedAny : Bool) (s : Session) (definition : SchemaId) : Prop :=
  (g.node (g.actual definition)).reference = none →
    g.isDefinitionType inlineNamedAny (g.actual definition) → g.actual definition ∈ s.prepared

/-- The definitions of a named schema have been attended to, unless it is being registered. -/
def Covered (g : Graph) (inlineNamedAny : Bool) (s : Session) : Prop :=
  ∀ id name, s.nameOf? id = some name → id ∈ s.registering ∨
    ∀ entry ∈ (g.node id).definitions, Attended g inlineNamedAny s entry.2

lemma Attended.mono (h : Attended g inlineNamedAny s definition) (hsub : s.prepared ⊆ t.prepared) :
    Attended g inlineNamedAny t definition :=
  fun hend hdef => hsub (h hend hdef)

lemma Covered.start : Covered g inlineNamedAny { graph := g } := by
  intro id name hname
  cases hname

lemma Covered.mono (h : Covered g inlineNamedAny s) (htypes : t.types = s.types)
    (hregistering : s.registering ⊆ t.registering) (hprepared : s.prepared ⊆ t.prepared) :
    Covered g inlineNamedAny t := by
  intro id name hname
  rw [nameOf?, htypes] at hname
  refine (h id name hname).imp (fun hid => hregistering hid) fun hall entry hentry => ?_
  exact (hall entry hentry).mono hprepared

lemma Covered.endRegistration (h : Covered g inlineNamedAny s)
    (hall : ∀ entry ∈ (g.node id).definitions, Attended g inlineNamedAny s entry.2) :
    Covered g inlineNamedAny (s.endRegistration id) := by
  intro other name hname
  by_cases heq : other = id
  · subst heq
    exact .inr hall
  · exact (h other name hname).imp_left (List.mem_erase_of_ne heq).mpr

lemma Run.attended_of (hrun : Run env { graph := g } s)
    (h : s.graph.isDefinitionType inlineNamedAny (s.graph.actual definition) →
      s.graph.actual definition ∈ t.prepared) : Attended g inlineNamedAny t definition := by
  intro hend hdef
  have hgrows : g.Grows s.graph := hrun.grows
  rw [hgrows.actual_of_ended hend] at h
  exact h (hgrows.isDefinitionType hdef)

lemma Run.mem_prepared (hrun : Run env { graph := g } s) : id ∈ (s.prepare id).2.prepared := by
  rcases s.prepare_outcome id with ⟨wrapper, hwrapper, h⟩ | ⟨_, hprepared, h⟩ | ⟨_, _, hprepared, _⟩
  · rw [h]
    exact hrun.wrapped_prepared hwrapper
  · rw [h]
    exact hprepared
  · rw [hprepared]
    exact List.mem_cons_self

/-- Choices with a discriminator of their own have wrappers when they are prepared. -/
def Wrapped (g : Graph) (s : Session) : Prop :=
  ∀ id ∈ s.prepared, (g.node id).discriminator ≠ none → (g.node id).oneOf ≠ [] →
    ∃ wrapper, s.wrapper? id = some wrapper

lemma Step.wrapped (h : Step env s t) (hgrows : g.Grows s.graph) (hs : Wrapped g s) :
    Wrapped g t := by
  intro id hid hdiscriminator hone
  have hold (hid : id ∈ s.prepared) : ∃ wrapper, t.wrapper? id = some wrapper := by
    obtain ⟨wrapper, hwrapper⟩ := hs id hid hdiscriminator hone
    exact ⟨wrapper, Run.wrapper? (.single h) hwrapper⟩
  rcases h.prepare_cases with ⟨_, _, hprepared⟩ | ⟨base, rfl⟩
  · exact hold (hprepared ▸ hid)
  rcases mem_prepared_of_prepare hid with rfl | hid
  case inr => exact hold hid
  have hprepares := s.prepares id
  generalize s.prepare id = result at hprepares hid hold
  cases hprepares with
  | wrapped wrapper h => exact ⟨wrapper, h⟩
  | known h hprepared => exact hold hprepared
  | wraps graph wrapper remappings h => exact ⟨wrapper, lookup_append_self h⟩
  | expands h hprepared hwrap =>
    have hgrown := hgrows.trans (Graph.grows_expandAlternatives s.graph id) id
    refine absurd hwrap (Graph.wrapChoice_ne_none ?_ ?_)
    · exact mt hgrown.discriminator_eq_none hdiscriminator
    · rwa [hgrown.oneOf]

lemma Run.wrapped (h : Run env { graph := g } s) : Wrapped g s := by
  have hall : g.Grows s.graph ∧ Wrapped g s := by
    refine h.keeps (fun hstep hs => ⟨hs.1.trans hstep.grows, hstep.wrapped hs.1 hs.2⟩) ⟨.refl g, ?_⟩
    exact fun id hid => absurd hid List.not_mem_nil
  exact hall.2

end Session

namespace SessionM

variable {env : Environment} {s t : Session} {g : Graph} {id : SchemaId}

/-- Naming leaves schemas covered, and as many of them are being registered as before. -/
def Covers (env : Environment) (g : Graph) (name : SchemaId → Option String → SessionM String) :
    Prop :=
  ∀ s id hint n t, Session.Run env { graph := g } s →
    s.Covered g env.resolver.inlineNamedAny → name id hint env s = (.ok n, t) →
      Session.Run env s t ∧ t.registering = s.registering ∧
        t.Covered g env.resolver.inlineNamedAny

lemma assign_covers {hint : Option String} {name : String}
    (hs : s.Covered g env.resolver.inlineNamedAny)
    (hid : id ∈ s.registering ∨ ∀ entry ∈ (g.node id).definitions,
      Session.Attended g env.resolver.inlineNamedAny s entry.2)
    (h : assign id hint env s = (.ok name, t)) :
    t.registering = s.registering ∧ t.Covered g env.resolver.inlineNamedAny := by
  rcases assign_eq_ok h with ⟨_, rfl⟩ | ⟨_, rfl⟩
  · exact ⟨rfl, hs⟩
  · refine ⟨rfl, fun other n hother => ?_⟩
    by_cases heq : other = id
    · subst heq
      exact hid
    · exact hs other n (nameOf?_of_give heq hother)

lemma registerEach_covers {name : SchemaId → Option String → SessionM String}
    (hname : Covers env g name) (definitions : List (String × SchemaId))
    (hrun : Session.Run env { graph := g } s) (hs : s.Covered g env.resolver.inlineNamedAny)
    (h : registerEach name definitions env s = (.ok (), t)) :
    Session.Run env s t ∧ t.registering = s.registering ∧
      t.Covered g env.resolver.inlineNamedAny ∧
      ∀ entry ∈ definitions, Session.Attended g env.resolver.inlineNamedAny t entry.2 := by
  induction definitions generalizing s with
  | nil =>
    cases h
    exact ⟨.refl, rfl, hs, by simp⟩
  | cons entry rest ih =>
    obtain ⟨key, definition⟩ := entry
    cases hdef : s.graph.isDefinitionType env.resolver.inlineNamedAny
        (s.graph.actual definition) with
    | false =>
      rw [registerEach_passed hdef] at h
      obtain ⟨hlater, hregistering, ht, hall⟩ := ih hrun hs h
      refine ⟨hlater, hregistering, ht, List.forall_mem_cons.mpr ⟨hrun.attended_of ?_, hall⟩⟩
      simp [hdef]
    | true =>
      rw [registerEach_named hdef] at h
      obtain ⟨n, u, hnamed, hrest⟩ := bind_eq_ok h
      have hprepare : Session.Run env s (s.prepare (s.graph.actual definition)).2 :=
        .single (.prepare _ hdef)
      have hregistering : (s.prepare (s.graph.actual definition)).2.registering = s.registering :=
        Session.prepare_keeps Session.registering (fun _ _ _ _ _ => rfl) s _
      have hcovered := hs.mono (Session.prepare_types s _) (fun _ hid => hregistering ▸ hid)
        hprepare.prepared_subset
      obtain ⟨hnames, hregistering', hu⟩ :=
        hname _ _ _ _ _ (hrun.trans hprepare) hcovered hnamed
      have hbefore : Session.Run env s u := hprepare.trans hnames
      obtain ⟨hlater, hregistering'', ht, hall⟩ := ih (hrun.trans hbefore) hu hrest
      refine ⟨hbefore.trans hlater, by rw [hregistering'', hregistering', hregistering], ht,
        List.forall_mem_cons.mpr ⟨hrun.attended_of fun _ => ?_, hall⟩⟩
      exact Session.Run.prepared_subset (hnames.trans hlater) hrun.mem_prepared

lemma typeNameWithin_covers (depth : ℕ) : Covers env g (typeNameWithin depth) := by
  induction depth with
  | zero =>
    intro s id hint n t _ _ h
    cases h
  | succ depth ih =>
    intro s id hint n t hrun hs h
    rcases typeNameWithin_eq_ok h with ⟨_, rfl⟩ | ⟨u, hu, hassign⟩
    · exact ⟨.refl, rfl, hs⟩
    generalize s.graph.carrier id = schema at hu hassign
    have hnamed := ((assign_leads schema hint).result hassign).1
    rcases hu with ⟨hbusy, rfl⟩ | ⟨hfree, v, hregister, rfl⟩
    · obtain ⟨hregistering, ht⟩ := assign_covers hs (.inl hbusy) hassign
      exact ⟨hnamed, hregistering, ht⟩
    · have hbegin : Session.Run env s (s.beginRegistration schema) :=
        .single (.beginRegistration schema hfree)
      have hcovered : (s.beginRegistration schema).Covered g env.resolver.inlineNamedAny :=
        hs.mono rfl (List.subset_cons_self _ _) (List.Subset.refl _)
      rw [(show g.Grows s.graph from hrun.grows) schema |>.definitions] at hregister
      obtain ⟨hnames, hregistering, hv, hall⟩ :=
        registerEach_covers ih _ (hrun.trans hbegin) hcovered hregister
      obtain ⟨hregistering', ht⟩ := assign_covers (hv.endRegistration hall) (.inr hall) hassign
      refine ⟨((hbegin.trans hnames).tail (.endRegistration schema)).trans hnamed, ?_, ht⟩
      rw [hregistering', Session.endRegistration, hregistering, Session.beginRegistration,
        List.erase_cons_head]

lemma typeName_covers : Covers env g typeName := by
  intro s id hint n t hrun hs h
  rw [typeName, bind_ok graph_apply] at h
  exact typeNameWithin_covers _ s id hint n t hrun hs h

end SessionM

end SchemaTypes
