import SchemaTypes.Proofs.Graph.Loaded
import SchemaTypes.Proofs.Session.Guards
import SchemaTypes.Proofs.Session.Steady

/-! On which occasions schemas are named. A wrapper is as soon as it is made, by a key of its
definition; any other schema is when it is asked for, by itself or by what leads to it. -/

namespace SchemaTypes

open SessionM

namespace Session

variable {env : Environment} {s t u : Session} {d : Document} {id : SchemaId}

/-- The occasions on which a schema is asked for by its number, so that no wrapper takes the place
of what it leads to. -/
inductive Occasion (root : SchemaId) (s : Session) (id : SchemaId) : Prop
  /-- What it leads to has no wrapper, or not yet. -/
  | unwrapped (h : s.wrapper? (s.graph.carrier id) = none)
  | root (h : id = root)
  /-- A definition that is something else without its nullability. -/
  | definition (owner : SchemaId) (entry : String × SchemaId)
      (hentry : entry ∈ (s.graph.node owner).definitions) (hid : s.graph.actual entry.2 = id)
      (hother : s.graph.carrier id ≠ id)
  | container (h : (s.graph.node id).isArray ∨ (s.graph.node id).isDictionary)
  /-- A reference among the parts of a schema that is declared. -/
  | part (owner : SchemaId) (hname : s.nameOf? owner ≠ none)
      (hpart : id ∈ (s.graph.node owner).allOf) (href : s.graph.isReference id)

/-- At a point on the way to the session the schema without a name was asked for by `id`. -/
structure AskedAt (env : Environment) (d : Document) (s : Session) (schema : SchemaId)
    (u : Session) (id : SchemaId) : Prop where
  before : Run env { graph := d.graph } u
  unnamed : u.nameOf? schema = none
  carrier : u.graph.carrier id = schema
  occasion : u.Occasion d.root id
  call : ∃ depth hint name t, typeNameWithin depth id hint env u = (.ok name, t) ∧ Run env t s

/-- The wrapper got its name on a request with the key of an entry for its definition. -/
def Lodged (env : Environment) (d : Document) (s : Session) (entry : SchemaId × SchemaId) : Prop :=
  ∃ u owner key definition name, Run env { graph := d.graph } u ∧
    (key, definition) ∈ (d.graph.node owner).definitions ∧ d.graph.actual definition = entry.1 ∧
    env.generator (u.request entry.2 (some key)) = .ok name ∧ s.nameOf? entry.2 = some name

/-- The schemas of the document that have names were asked for. -/
structure Asked (env : Environment) (d : Document) (s : Session) : Prop where
  run : Run env { graph := d.graph } s
  named : s.Named
  asked : ∀ id name, id < d.graph.size → s.nameOf? id = some name →
    ∃ u other, AskedAt env d s id u other

/-- Every name of the session is accounted for, and every wrapper has one. -/
structure Accounted (env : Environment) (d : Document) (s : Session) : Prop
    extends Asked env d s where
  lodged : ∀ entry ∈ s.wrappers, Lodged env d s entry

lemma Accounted.start : Accounted env d { graph := d.graph } :=
  ⟨⟨.refl, by simp [Named], by simp [nameOf?]⟩, by simp⟩

lemma AskedAt.later {schema : SchemaId} (h : AskedAt env d s schema u id) (hrun : Run env s t) :
    AskedAt env d t schema u id := by
  obtain ⟨hbefore, hunnamed, hcarrier, hoccasion, depth, hint, name, v, hcall, hlater⟩ := h
  exact ⟨hbefore, hunnamed, hcarrier, hoccasion, depth, hint, name, v, hcall, hlater.trans hrun⟩

lemma Lodged.later {entry : SchemaId × SchemaId} (h : Lodged env d s entry) (hrun : Run env s t) :
    Lodged env d t entry := by
  obtain ⟨u, owner, key, definition, name, hu, hentry, hactual, hgenerated, hname⟩ := h
  exact ⟨u, owner, key, definition, name, hu, hentry, hactual, hgenerated, hrun.nameOf? hname⟩

lemma Asked.step (hs : Asked env d s) (h : Step env s t) (hnamed : t.Named)
    (htypes : t.types = s.types) : Asked env d t := by
  refine ⟨hs.run.tail h, hnamed, fun id name hid hname => ?_⟩
  rw [nameOf?, htypes] at hname
  obtain ⟨u, other, hasked⟩ := hs.asked id name hid hname
  exact ⟨u, other, hasked.later (.single h)⟩

lemma Asked.prepare (hs : Asked env d s)
    (hdef : s.graph.isDefinitionType env.resolver.inlineNamedAny id) :
    Asked env d (s.prepare id).2 := by
  have hends : Ends env s (SessionM.prepare id) := prepare_ends hdef
  exact hs.step (.prepare id hdef) (hends.1.named hs.named) (prepare_types s id)

lemma Accounted.step (hs : Accounted env d s) (h : Step env s t) (hnamed : t.Named)
    (htypes : t.types = s.types) (hwrappers : t.wrappers = s.wrappers) : Accounted env d t := by
  refine ⟨hs.toAsked.step h hnamed htypes, fun entry hentry => ?_⟩
  exact (hs.lodged entry (hwrappers ▸ hentry)).later (.single h)

end Session

namespace SessionM

open Session

variable {env : Environment} {s t : Session} {d : Document} {id : SchemaId} {hint : Option String}
  {name : String}

lemma assign_asked (hs : Asked env d s) (hid : id < s.graph.size)
    (h : assign id hint env s = (.ok name, t))
    (hself : s.nameOf? id = none → id < d.graph.size → ∃ u other, AskedAt env d t id u other) :
    Asked env d t := by
  have hrun := ((assign_leads id hint).result h).1
  have hends : Ends env s (assign id hint) := assign_ends hid hint
  have hnamed := hends.1.named hs.named
  rw [h] at hnamed
  refine ⟨hs.run.trans hrun, hnamed, fun other name' hother hname => ?_⟩
  rcases assign_eq_ok h with ⟨_, rfl⟩ | ⟨hunnamed, rfl⟩
  · exact hs.asked other name' hother hname
  · by_cases hsame : other = id
    · exact hsame ▸ hself hunnamed (hsame ▸ hother)
    · obtain ⟨u, id', hasked⟩ := hs.asked other name' hother (nameOf?_of_give hsame hname)
      exact ⟨u, id', hasked.later hrun⟩

lemma assign_accounted (hs : Accounted env d s) (hid : id < s.graph.size)
    (h : assign id hint env s = (.ok name, t))
    (hself : s.nameOf? id = none → id < d.graph.size → ∃ u other, AskedAt env d t id u other) :
    Accounted env d t := by
  have hrun := ((assign_leads id hint).result h).1
  have hwrappers : (assign id hint env s).2.wrappers = s.wrappers :=
    assign_keeps Session.wrappers (fun _ _ _ _ => rfl) id hint
  rw [h] at hwrappers
  refine ⟨assign_asked hs.toAsked hid h hself, fun entry hentry => ?_⟩
  exact (hs.lodged entry (hwrappers ▸ hentry)).later hrun

section

variable {text : String} (hload : Document.ofJson text = .ok d ∨ Document.ofYaml text = .ok d)

include hload

/-- What has a wrapper has alternatives, so that it is no reference. -/
lemma base_inline (hs : s.Extends d.graph) {entry : SchemaId × SchemaId}
    (hentry : entry ∈ s.wrappers) : (d.graph.node entry.1).reference = none := by
  by_contra href
  refine hs.bases entry hentry (Document.oneOf_of_reference hload _ ?_)
  exact Option.isSome_iff_ne_none.mpr href

lemma lodge {owner : SchemaId} {key : String} {definition : SchemaId}
    (hs : Accounted env d s) (hentry : (key, definition) ∈ (d.graph.node owner).definitions)
    (hdef : s.graph.isDefinitionType env.resolver.inlineNamedAny (s.graph.actual definition))
    (hnew : (s.prepare (s.graph.actual definition)).2.wrappers =
      s.wrappers ++ [(s.graph.actual definition, s.graph.size)])
    (h : assign s.graph.size (some key) env (s.prepare (s.graph.actual definition)).2 =
      (.ok name, t)) : Accounted env d t := by
  obtain ⟨root, hrepresents⟩ := Document.represents_of_load hload
  have hprepared := hs.toAsked.prepare hdef
  have hextends := hprepared.run.extends (.start hrepresents.closed)
  generalize hbase : s.graph.actual definition = base at *
  obtain ⟨hrun, hlast⟩ := (assign_leads _ _).result h
  have hbound : (base, s.graph.size) ∈ (s.prepare base).2.wrappers := by simp [hnew]
  have hrange := hextends.wrapper_range hbound
  have hunnamed : (s.prepare base).2.nameOf? s.graph.size = none := by
    rw [nameOf?, prepare_types]
    exact hs.named.unnamed (Nat.le_refl _)
  have hwrappers : (assign s.graph.size (some key) env (s.prepare base).2).2.wrappers =
      (s.prepare base).2.wrappers := assign_keeps Session.wrappers (fun _ _ _ _ => rfl) _ _
  rw [h, hnew] at hwrappers
  refine ⟨assign_asked hprepared hrange.2 h fun _ hlt => ?_, fun entry hmem => ?_⟩
  · exact absurd hlt (Nat.not_lt.mpr hrange.1)
  rw [hwrappers] at hmem
  rcases List.mem_append.mp hmem with hold | hlast'
  · exact (hs.lodged entry hold).later (.head (.prepare base hdef) hrun)
  · rw [List.mem_singleton.mp hlast']
    have hend := base_inline hload hextends hbound
    have hfollow : s.graph.actual definition = d.graph.follow s.graph.size definition :=
      hs.run.grows.follow _ _
    have hactual : d.graph.actual definition = base := by
      rw [← hbase, hfollow] at hend ⊢
      exact Graph.actual_of_follow hend
    rcases assign_unnamed hunnamed (some key) with ⟨e, heq, _⟩ | ⟨name', heq, hgenerated, _⟩
    · rw [heq] at h
      cases h
    · rw [heq] at h
      cases h
      exact ⟨_, owner, key, definition, name, hprepared.run, hentry, hactual, hgenerated, hlast⟩

/-- Naming leaves names accounted for, if a schema of the document is asked for on an occasion. -/
def Accounts (env : Environment) (d : Document)
    (name : SchemaId → Option String → SessionM String) : Prop :=
  ∀ s id hint n t, Accounted env d s → id < s.graph.size →
    (s.graph.carrier id < d.graph.size → s.Occasion d.root id) →
    name id hint env s = (.ok n, t) → Accounted env d t

/-- What is prepared without a new wrapper is asked for on an occasion, or it is a wrapper. -/
lemma prepared_occasion {owner target : SchemaId} {entry : String × SchemaId}
    (hs : Asked env d s) (hentry : entry ∈ (d.graph.node owner).definitions)
    (hdef : s.graph.isDefinitionType env.resolver.inlineNamedAny (s.graph.actual entry.2))
    (hprepare : s.prepare (s.graph.actual entry.2) = (target, t))
    (hsame : t.wrappers = s.wrappers) (hlt : t.graph.carrier target < d.graph.size) :
    t.Occasion d.root target := by
  obtain ⟨root, hrepresents⟩ := Document.represents_of_load hload
  have ht := hs.prepare hdef
  rw [hprepare] at ht
  have hextends := hs.run.extends (.start hrepresents.closed)
  have hextends' := ht.run.extends (.start hrepresents.closed)
  rcases prepare_settles hprepare with hwrapper | ⟨rfl, _, hnone⟩
  · rw [(ht.run.plainWrappers (.start d.graph)).carrier hwrapper] at hlt
    exact absurd hlt (Nat.not_lt.mpr (hextends'.size_le_wrapper hwrapper))
  by_cases hself : t.graph.carrier (s.graph.actual entry.2) = s.graph.actual entry.2
  · exact .unwrapped (by rwa [hself])
  · have hgrows : d.graph.Grows t.graph := ht.run.grows
    have hstep : Step env s (s.prepare (s.graph.actual entry.2)).2 := .prepare _ hdef
    have hsize : t.graph.size = s.graph.size := by rw [hextends'.size, hextends.size, hsame]
    rw [hprepare] at hstep
    exact .definition owner entry ((hgrows owner).definitions ▸ hentry)
      (hstep.grows.actual hsize entry.2) hself

lemma entry_accounts {name : SchemaId → Option String → SessionM String}
    (hname : Accounts env d name)
    (hleaf : ∀ s id hint n t, (s.graph.node (s.graph.carrier id)).definitions = [] →
      name id hint env s = (.ok n, t) → assign (s.graph.carrier id) hint env s = (.ok n, t))
    {owner definition : SchemaId} {key n : String}
    (hentry : (key, definition) ∈ (d.graph.node owner).definitions) (hs : Accounted env d s)
    (hdef : s.graph.isDefinitionType env.resolver.inlineNamedAny (s.graph.actual definition))
    (h : name (s.prepare (s.graph.actual definition)).1 (some key) env
      (s.prepare (s.graph.actual definition)).2 = (.ok n, t)) : Accounted env d t := by
  obtain ⟨root, hrepresents⟩ := Document.represents_of_load hload
  have hprepared := hs.toAsked.prepare hdef
  have hextends := hprepared.run.extends (.start hrepresents.closed)
  rcases s.prepare_wrappers (s.graph.actual definition) with hsame | ⟨_, htarget, hnew⟩
  · have hlt := (hrepresents.closed owner).definitions _ hentry
    have hbefore := hs.run.extends (.start hrepresents.closed)
    have hactual := hbefore.closed.actual_lt (Nat.lt_of_lt_of_le hlt hbefore.le_size)
    have hall := hs.step (.prepare _ hdef) hprepared.named (prepare_types s _) hsame
    exact hname _ _ _ n t hall (prepare_target_lt hbefore hdef hactual)
      (prepared_occasion hload hs.toAsked hentry hdef (Prod.eta _).symm hsame) h
  · have hwrapper : (s.prepare (s.graph.actual definition)).2.wrapper?
        (s.graph.actual definition) = some s.graph.size :=
      hextends.wrapper?_eq_some.mpr (by simp [hnew])
    have hcarrier := (hprepared.run.plainWrappers (.start d.graph)).carrier hwrapper
    rw [htarget] at h
    have hassign := hleaf _ _ _ _ _ ?_ h
    · rw [hcarrier] at hassign
      exact lodge hload hs hentry hdef hnew hassign
    · rw [hcarrier]
      exact hextends.node_empty (hextends.size_le_wrapper hwrapper)

lemma registerEach_accounts {name : SchemaId → Option String → SessionM String}
    (hname : Accounts env d name)
    (hleaf : ∀ s id hint n t, (s.graph.node (s.graph.carrier id)).definitions = [] →
      name id hint env s = (.ok n, t) → assign (s.graph.carrier id) hint env s = (.ok n, t))
    {owner : SchemaId} (hs : Accounted env d s)
    (h : registerEach name (d.graph.node owner).definitions env s = (.ok (), t)) :
    Accounted env d t :=
  registerEach_keeps (fun _ _ _ _ _ hentry hs hdef hnamed =>
    entry_accounts hload hname hleaf hentry hs hdef hnamed) hs h

omit hload

lemma typeNameWithin_eq_assign (depth : ℕ)
    (h : (s.graph.node (s.graph.carrier id)).definitions = [])
    (hname : typeNameWithin depth id hint env s = (.ok name, t)) :
    assign (s.graph.carrier id) hint env s = (.ok name, t) := by
  cases depth with
  | zero => cases hname
  | succ depth => rwa [typeNameWithin_leaf h] at hname

include hload

lemma typeNameWithin_accounts (depth : ℕ) : Accounts env d (typeNameWithin depth) := by
  obtain ⟨root, hrepresents⟩ := Document.represents_of_load hload
  induction depth with
  | zero =>
    intro s id hint n t _ _ _ h
    cases h
  | succ depth ih =>
    intro s id hint n t hs hid hoccasion h
    have hextends := hs.run.extends (.start hrepresents.closed)
    have hcarrier := hextends.closed.carrier_lt hid
    -- This very call accounts for the name that it gives.
    have hself (hunnamed : s.nameOf? (s.graph.carrier id) = none)
        (hlt : s.graph.carrier id < d.graph.size) :
        ∃ u other, AskedAt env d t (s.graph.carrier id) u other :=
      ⟨s, id, hs.run, hunnamed, rfl, hoccasion hlt, depth + 1, hint, n, t, h, .refl⟩
    by_cases hleaf : (s.graph.node (s.graph.carrier id)).definitions = []
    case pos => exact assign_accounted hs hcarrier (typeNameWithin_eq_assign _ hleaf h) hself
    rcases typeNameWithin_eq_ok h with
      ⟨_, rfl⟩ | ⟨u, ⟨_, rfl⟩ | ⟨hfree, v, hregister, rfl⟩, hassign⟩
    · exact hs
    · exact assign_accounted hs hcarrier hassign hself
    · have hbegin : Step env s (s.beginRegistration (s.graph.carrier id)) :=
        .beginRegistration _ hfree
      rw [(show d.graph.Grows s.graph from hs.run.grows) _ |>.definitions] at hregister
      have hv := registerEach_accounts hload ih
        (fun s id hint n t => typeNameWithin_eq_assign depth) (hs.step hbegin hs.named rfl rfl)
        hregister
      have hend := hv.step (.endRegistration (s.graph.carrier id)) hv.named rfl rfl
      have hrun : Run env s (v.endRegistration (s.graph.carrier id)) :=
        .head hbegin (.tail ?_ (.endRegistration _))
      refine assign_accounted hend (Nat.lt_of_lt_of_le hcarrier hrun.size_le) hassign
        fun hunnamed => hself (hrun.nameOf?_eq_none hunnamed)
      exact ((registerEach_leads (fun id hint _ => (typeNameWithin_leads depth id hint).forget)
        _).result hregister).1

lemma typeName_accounts : Accounts env d typeName := by
  intro s id hint n t hs hid hoccasion h
  rw [typeName, bind_ok graph_apply] at h
  exact typeNameWithin_accounts hload _ s id hint n t hs hid hoccasion h

lemma register_accounts (hs : Accounted env d s)
    (h : SessionM.register d.definitions env s = (.ok (), t)) : Accounted env d t := by
  refine registerEach_accounts hload (typeName_accounts hload) ?_ hs h
  intro s id hint n t hleaf hname
  rw [typeName, bind_ok graph_apply] at hname
  exact typeNameWithin_eq_assign _ hleaf hname

end

end SessionM

end SchemaTypes
