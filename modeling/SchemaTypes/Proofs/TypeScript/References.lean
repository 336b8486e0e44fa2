import SchemaTypes.Proofs.Graph.Loaded
import SchemaTypes.Proofs.Session.Preparation
import SchemaTypes.Proofs.TypeScript.Declarations

/-! References to definitions. The name that a definition was registered with is the name by which
a reference to it is spelled, exactly if the registered schema is its own carrier. -/

namespace SchemaTypes

namespace Graph

variable {g : Graph} {id : SchemaId} {inlineNamedAny : Bool}

lemma resolvable_reference (hone : (g.node id).oneOf = [])
    (hdef : g.isDefinitionType inlineNamedAny (g.actual id)) :
    g.resolvable inlineNamedAny id = id := by
  simp only [resolvable, removeNullability_of_oneOf hone, hdef, if_true]

lemma generatesType_reference (hone : (g.node id).oneOf = []) (href : g.isReference id)
    (hdef : g.isDefinitionType inlineNamedAny (g.actual id)) :
    g.generatesType inlineNamedAny id = true := by
  have hsome : (g.node id).reference.isSome = true := href
  simp only [generatesType, resolvable_reference hone hdef, hsome, Bool.true_or]

end Graph

namespace SessionM

variable {env : Environment} {s t : Session} {id : SchemaId}

lemma spellNullable_false (e : TypeExpr) : spellNullable false e env s = (.ok e, s) := by
  simp only [spellNullable, bind_ok read_apply, Bool.not_false, Bool.true_or, if_true,
    pure_apply]

lemma resolveWithin_false (depth : ℕ) (id : SchemaId) (hint : Option String) :
    resolveWithin (depth + 1) id false hint env s =
      resolveBare (resolveWithin depth) id hint env s := by
  rw [resolveWithin, bind_apply]
  rcases resolveBare (resolveWithin depth) id hint env s with ⟨_ | e, t⟩
  · rfl
  · exact spellNullable_false e

lemma resolve_false (id : SchemaId) (hint : Option String) :
    ∃ resolver, SessionM.resolve id false hint env s = resolveBare resolver id hint env s := by
  obtain ⟨depth, hdepth⟩ : ∃ depth, (s.graph.size + 2) * (s.graph.size + 2) = depth + 1 :=
    Nat.exists_eq_add_one.mpr (Nat.mul_pos (Nat.succ_pos _) (Nat.succ_pos _))
  refine ⟨resolveWithin depth, ?_⟩
  rw [SessionM.resolve, bind_ok graph_apply, hdepth, resolveWithin_false]

variable {resolver : Resolver} {hint : Option String}

lemma resolveBare_wrapped {wrapper : SchemaId} (hone : (s.graph.node id).oneOf = [])
    (hdef : s.graph.isDefinitionType env.resolver.inlineNamedAny (s.graph.actual id))
    (hwrapper : s.wrapper? (s.graph.actual id) = some wrapper) :
    resolveBare resolver id hint env s =
      (typeName wrapper hint >>= fun name => pure (.ident name)) env s := by
  rw [resolveBare, bind_ok get_apply, bind_ok read_apply]
  simp only [Graph.resolvable_reference hone hdef, hwrapper]

lemma resolveBare_reference (hone : (s.graph.node id).oneOf = []) (href : s.graph.isReference id)
    (hdef : s.graph.isDefinitionType env.resolver.inlineNamedAny (s.graph.actual id))
    (hwrapper : s.wrapper? (s.graph.actual id) = none) :
    resolveBare resolver id hint env s =
      (typeName id hint >>= fun name => pure (.ident name)) env s := by
  rw [resolveBare, bind_ok get_apply, bind_ok read_apply]
  simp only [Graph.resolvable_reference hone hdef, hwrapper, href, Bool.not_true, Bool.and_false,
    Bool.false_eq_true, if_false, Graph.generatesType_reference hone href hdef, Bool.true_or,
    if_true]

lemma resolve_wrapped {wrapper : SchemaId} {name : String}
    (hone : (s.graph.node id).oneOf = [])
    (hdef : s.graph.isDefinitionType env.resolver.inlineNamedAny (s.graph.actual id))
    (hwrapper : s.wrapper? (s.graph.actual id) = some wrapper)
    (hname : s.nameOf? (s.graph.carrier wrapper) = some name) :
    SessionM.resolve id false hint env s = (.ok (.ident name), s) := by
  obtain ⟨resolver, hresolve⟩ := resolve_false id hint
  rw [hresolve, resolveBare_wrapped hone hdef hwrapper, bind_ok (typeName_named hname hint)]
  rfl

lemma resolve_reference_iff {other : SchemaId} {name : String} (hs : s.NamesApart)
    (hone : (s.graph.node id).oneOf = []) (href : s.graph.isReference id)
    (hdef : s.graph.isDefinitionType env.resolver.inlineNamedAny (s.graph.actual id))
    (hwrapper : s.wrapper? (s.graph.actual id) = none) (hname : s.nameOf? other = some name) :
    ((SessionM.resolve id false hint env s).1 = .ok (.ident name) ∧
        (SessionM.resolve id false hint env s).2.types = s.types) ↔
      other = s.graph.actual id := by
  obtain ⟨resolver, hresolve⟩ := resolve_false id hint
  rw [hresolve, resolveBare_reference hone href hdef hwrapper]
  constructor
  · rintro ⟨hresult, htypes⟩
    obtain ⟨n, t, htype, hpure⟩ := bind_eq_ok (Prod.ext hresult rfl)
    cases hpure
    have hpost := (typeName_leads id hint).2 name (by rw [htype])
    rw [bind_ok htype] at htypes
    rw [htype, Session.nameOf?, Graph.carrier_of_oneOf hone] at hpost
    rw [pure_apply] at htypes
    rw [htypes] at hpost
    exact hs.nameOf?_inj hname hpost
  · intro hother
    have hcarrier : s.nameOf? (s.graph.carrier id) = some name := by
      rwa [Graph.carrier_of_oneOf hone, ← hother]
    rw [bind_ok (typeName_named hcarrier hint)]
    exact ⟨rfl, rfl⟩

end SessionM

namespace Document

open SessionM

variable {text : String} {d : Document} {env : Environment}

def sessionAfter (d : Document) (env : Environment) (entries : List (String × SchemaId)) :
    Session :=
  (SessionM.register entries env { graph := d.graph }).2

def registered (d : Document) (env : Environment) : Session :=
  (d.register env { graph := d.graph }).2

lemma register_entry {before after : List (String × SchemaId)} {key : String}
    {id target : SchemaId} {t : Session} (hentry : d.definitions = before ++ (key, id) :: after)
    (hregister : (d.register env { graph := d.graph }).1 = .ok ())
    (hdef : (d.sessionAfter env before).graph.isDefinitionType env.resolver.inlineNamedAny
      ((d.sessionAfter env before).graph.actual id))
    (hprepare : (d.sessionAfter env before).prepare ((d.sessionAfter env before).graph.actual id) =
      (target, t)) :
    ∃ name u, typeName target (some key) env t = (.ok name, u) ∧
      Session.Run env u (d.registered env) := by
  have hall : d.register env { graph := d.graph } = (.ok (), d.registered env) :=
    Prod.ext hregister rfl
  obtain ⟨_, v, hdefinitions, hroot⟩ := bind_eq_ok hall
  rw [SessionM.register, hentry] at hdefinitions
  obtain ⟨s, hbefore, hrest⟩ := registerEach_append hdefinitions
  have hs : d.sessionAfter env before = s := by
    rw [sessionAfter, SessionM.register, hbefore]
  rw [hs] at hdef hprepare
  rw [registerEach_named hdef, hprepare] at hrest
  obtain ⟨name, u, hname, hafter⟩ := bind_eq_ok hrest
  have hlater : Session.Run env u v := by
    have h : Session.Run env u _ := (SessionM.register_leads after).1
    rwa [SessionM.register, hafter] at h
  have hend : Session.Run env v (d.registered env) := by
    have h : Session.Run env v _ := d.nameRoot_leads.1
    rwa [hroot] at h
  exact ⟨name, u, hname, hlater.trans hend⟩

/-- A reference to a registered definition is spelled by the name that the definition got, and
names nothing, exactly if nothing is to be stripped from the schema that was registered. A
nullable definition with one other alternative fails this: the name goes to the alternative, while
a reference stops at the definition. -/
theorem reference_spelled_iff (hload : ofJson text = .ok d ∨ ofYaml text = .ok d)
    (hregister : (d.register env { graph := d.graph }).1 = .ok ())
    {before after : List (String × SchemaId)} {key : String} {id target : SchemaId} {t : Session}
    (hentry : d.definitions = before ++ (key, id) :: after)
    (hdef : (d.sessionAfter env before).graph.isDefinitionType env.resolver.inlineNamedAny
      ((d.sessionAfter env before).graph.actual id))
    (hprepare : (d.sessionAfter env before).prepare ((d.sessionAfter env before).graph.actual id) =
      (target, t)) :
    ∃ name u, typeName target (some key) env t = (.ok name, u) ∧
      ∀ r hint, (d.registered env).graph.isReference r →
        (d.registered env).graph.actual r = (d.sessionAfter env before).graph.actual id →
        ((SessionM.resolve r false hint env (d.registered env)).1 = .ok (.ident name) ∧
            (SessionM.resolve r false hint env (d.registered env)).2.types =
              (d.registered env).types ↔
          t.graph.carrier target = target) := by
  obtain ⟨name, u, hname, hlater⟩ := register_entry hentry hregister hdef hprepare
  refine ⟨name, u, hname, fun r hint href hactual => ?_⟩
  have hbefore : Session.Run env { graph := d.graph } (d.sessionAfter env before) :=
    (SessionM.register_leads before).1
  have hprepares : Session.Run env (d.sessionAfter env before) t := by
    have hstep : Session.Step env (d.sessionAfter env before) _ := .prepare _ hdef
    rw [hprepare] at hstep
    exact .single hstep
  have hleads : Leads env t (typeName target (some key)) _ := typeName_leads target (some key)
  rw [Leads, hname] at hleads
  have hafter : Session.Run env t (d.registered env) := hleads.1.trans hlater
  have hnamed := hlater.nameOf? (hleads.2 name rfl)
  have hrun : Session.Run env { graph := d.graph } t := hbefore.trans hprepares
  have hwhole : Session.Run env { graph := d.graph } (d.registered env) := hrun.trans hafter
  have hone : ((d.registered env).graph.node r).oneOf = [] := by
    have hgrows := hwhole.grows r
    rw [hgrows.oneOf]
    apply oneOf_of_reference hload
    rw [← hgrows.reference]
    exact href
  have hdef' : (d.registered env).graph.isDefinitionType env.resolver.inlineNamedAny
      ((d.registered env).graph.actual r) := by
    rw [hactual]
    exact (hprepares.grows.trans hafter.grows).isDefinitionType hdef
  -- A wrapper is named and used as it is. Without one the definition is used as it is, but named
  -- through its carrier.
  rcases Session.prepare_settles hprepare with hwrapper | ⟨rfl, hunwrapped⟩
  · have hplain := Session.PlainWrappers.start d.graph
    have hcarrier := (hrun.plainWrappers hplain).carrier hwrapper
    have hwrapper' := hafter.wrapper? hwrapper
    have hcarrier' := (hwhole.plainWrappers hplain).carrier hwrapper'
    rw [hcarrier] at hnamed
    rw [resolve_wrapped hone hdef' (by rwa [hactual]) (by rwa [hcarrier'])]
    exact iff_of_true ⟨rfl, rfl⟩ hcarrier
  · have hwrapper := (hafter.unwrapped hunwrapped).2
    have happart := hwhole.namesApart (.start d.graph)
    rw [resolve_reference_iff happart hone href hdef' (by rwa [hactual]) hnamed, hactual]

def maybePetText : String :=
  "\x7b\"definitions\":\x7b\"MaybePet\":\x7b\"oneOf\":[\x7b\"type\":\"null\"\x7d," ++
    "\x7b\"$ref\":\"#/definitions/Pet\"\x7d]\x7d,\"Pet\":\x7b\"enum\":[\"cat\"]\x7d\x7d," ++
    "\"properties\":\x7b\"p\":\x7b\"$ref\":\"#/definitions/MaybePet\"\x7d\x7d\x7d"

lemma maybePet_registers :
    ∃ d, ofJson maybePetText = .ok d ∧
      (d.register (.ofSettings {}) { graph := d.graph }).1 = .ok () ∧
      d.definitions = [] ++ ("MaybePet", 1) :: [("Pet", 2)] ∧
      (d.sessionAfter (.ofSettings {}) []).graph.isDefinitionType false
        ((d.sessionAfter (.ofSettings {}) []).graph.actual 1) := by
  decide +kernel

theorem maybePet_spelled_iff :
    ∃ d target t, ofJson maybePetText = .ok d ∧
      (d.register (.ofSettings {}) { graph := d.graph }).1 = .ok () ∧
      d.definitions = [] ++ ("MaybePet", 1) :: [("Pet", 2)] ∧
      (d.sessionAfter (.ofSettings {}) []).graph.isDefinitionType false
        ((d.sessionAfter (.ofSettings {}) []).graph.actual 1) ∧
      (d.sessionAfter (.ofSettings {}) []).prepare
        ((d.sessionAfter (.ofSettings {}) []).graph.actual 1) = (target, t) ∧
      ∃ name u, typeName target (some "MaybePet") (.ofSettings {}) t = (.ok name, u) ∧
        ∀ r hint, (d.registered (.ofSettings {})).graph.isReference r →
          (d.registered (.ofSettings {})).graph.actual r =
            (d.sessionAfter (.ofSettings {}) []).graph.actual 1 →
          ((SessionM.resolve r false hint (.ofSettings {}) (d.registered (.ofSettings {}))).1 =
                .ok (.ident name) ∧
              (SessionM.resolve r false hint (.ofSettings {})
                (d.registered (.ofSettings {}))).2.types =
                (d.registered (.ofSettings {})).types ↔
            t.graph.carrier target = target) := by
  obtain ⟨d, hload, hregister, hentry, hdef⟩ := maybePet_registers
  exact ⟨d, _, _, hload, hregister, hentry, hdef, rfl,
    reference_spelled_iff (.inl hload) hregister hentry hdef rfl⟩

theorem maybePet_renamed :
    ∃ d, ofJson maybePetText = .ok d ∧
      (d.register (.ofSettings {}) { graph := d.graph }).1 = .ok () ∧
      d.definitions = [] ++ ("MaybePet", 1) :: [("Pet", 2)] ∧
      (∃ name, (typeName ((d.sessionAfter (.ofSettings {}) []).prepare 1).1 (some "MaybePet")
        (.ofSettings {}) ((d.sessionAfter (.ofSettings {}) []).prepare 1).2).1 = .ok name ∧
        name = "MaybePet") ∧
      (d.registered (.ofSettings {})).graph.isReference 5 ∧
      (d.registered (.ofSettings {})).graph.actual 5 = 1 ∧
      ∃ e, (SessionM.resolve 5 false none (.ofSettings {}) (d.registered (.ofSettings {}))).1 =
        .ok e ∧ e = .ident "Anonymous" := by
  decide +kernel

end Document

end SchemaTypes
