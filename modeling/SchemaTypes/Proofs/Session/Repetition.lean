import SchemaTypes.Proofs.Session.Carriers
import SchemaTypes.Proofs.TypeScript.References

/-! Registration of definitions that were registered before. It finds the names that it gave, and
changes nothing, unless a definition is not read as it was the first time. -/

namespace SchemaTypes

namespace Session

variable {env : Environment} {s t : Session} {g : Graph} {id : SchemaId}

def target (s : Session) (id : SchemaId) : SchemaId := (s.wrapper? id).getD id

/-- Preparation has nothing left to do for the schema. -/
def Settled (s : Session) (id : SchemaId) : Prop :=
  s.wrapper? id ≠ none ∨ id ∈ s.prepared ∨ (s.graph.node id).oneOf = []

lemma Settled.of_oneOf (h : (s.graph.node id).oneOf = []) : s.Settled id := .inr (.inr h)

lemma Settled.prepare (h : s.Settled id) {prepared : List SchemaId} (hsub : s.prepared ⊆ prepared) :
    ∃ prepared', s.prepared ⊆ prepared' ∧
      ({ s with prepared } : Session).prepare id =
        (s.target id, { s with prepared := prepared' }) := by
  cases hwrapper : s.wrapper? id with
  | some wrapper =>
    refine ⟨prepared, hsub, ?_⟩
    have hwrapper' : ({ s with prepared } : Session).wrapper? id = some wrapper := hwrapper
    simp only [Session.prepare, hwrapper', target, hwrapper, Option.getD_some]
  | none =>
    have hwrapper' : ({ s with prepared } : Session).wrapper? id = none := hwrapper
    by_cases hprepared : id ∈ prepared
    · refine ⟨prepared, hsub, ?_⟩
      simp only [Session.prepare, hwrapper', List.contains_iff_mem.mpr hprepared, if_true, target,
        hwrapper, Option.getD_none]
    · have hone : (s.graph.node id).oneOf = [] := by
        rcases h with h | h | h
        · exact absurd hwrapper h
        · exact absurd (hsub h) hprepared
        · exact h
      have hexpand : s.graph.expandAlternatives id = s.graph :=
        Graph.expandAlternatives_of_oneOf hone
      have hwrap : s.graph.wrapChoice id = none := by
        cases hwrap : s.graph.wrapChoice id with
        | none => rfl
        | some result => exact absurd hone (Graph.wrapChoice_wraps hwrap).2.1
      have hcontains : prepared.contains id = false := by simpa using hprepared
      refine ⟨id :: prepared, List.subset_cons_of_subset id hsub, ?_⟩
      simp only [Session.prepare, hwrapper', hcontains, Bool.false_eq_true, if_false, hexpand,
        hwrap, target, hwrapper, Option.getD_none]

lemma Extends.target_of_oneOf (hs : Extends g s) (h : (s.graph.node id).oneOf = []) :
    s.target id = id := by
  have hnone : s.wrapper? id = none := by
    rw [wrapper?_eq_none]
    intro hmem
    obtain ⟨entry, hentry, rfl⟩ := List.mem_map.mp hmem
    rw [(hs.grows entry.1).oneOf] at h
    exact hs.bases entry hentry h
  rw [target, hnone, Option.getD_none]

lemma Run.discriminated (h : Run env s t) {inlineNamedAny : Bool} (hid : id < s.graph.size)
    (hno : s.graph.isDefinitionType inlineNamedAny id = false)
    (hyes : t.graph.isDefinitionType inlineNamedAny id = true) :
    (s.graph.node id).oneOf = [] ∧ (s.graph.node id).discriminator = none ∧
      (t.graph.node id).discriminator ≠ none := by
  obtain ⟨hany, hnot⟩ := Graph.isAny_of_isDefinitionType h.grows h.expands hno hyes
  have hplain : (s.graph.node id).oneOf = [] ∧ (s.graph.node id).discriminator = none := by
    simp only [Node.isAny, Bool.and_eq_true, List.isEmpty_iff, Option.isNone_iff_eq_none] at hany
    exact ⟨hany.1.1.1.1.1.1.2, hany.2⟩
  refine ⟨hplain.1, hplain.2, fun hnone => ?_⟩
  -- Without a discriminator it is as it was: parts go to new schemas, members to choices.
  obtain ⟨members, hmembers, hsome, _⟩ := h.expands id
  have hkept : members = [] := by
    by_contra hne
    exact (hsome hne).2 hplain.1
  rw [hkept, List.append_nil] at hmembers
  have hsame := (h.grows id).eq_of_kept (h.parts_kept hid) hmembers (hnone.trans hplain.2.symm)
  rw [hsame, hany] at hnot
  cases hnot

lemma Run.settled_and_found {target : SchemaId} {name : String} {u : Session}
    (hprepare : s.prepare id = (target, t)) (h : Run env t u) (ht : t.PlainWrappers)
    {rank : SchemaId → ℕ} (hrank : t.graph.Ranked rank)
    (href : (u.graph.node id).reference = none)
    (hname : u.nameOf? (t.graph.carrier target) = some name) :
    u.Settled id ∧ (u.nameOf? (u.graph.carrier (u.target id)) = some name ∨
      u.graph.isReference (u.graph.carrier (u.target id)) ∨
      (t.graph.node id).discriminator = none ∧ (u.graph.node id).discriminator ≠ none) := by
  rcases prepare_settles hprepare with hwrapper | ⟨rfl, hunwrapped⟩
  · have hwrapper' := h.wrapper? hwrapper
    refine ⟨.inl (by simp [hwrapper']), .inl ?_⟩
    rw [ht.carrier hwrapper] at hname
    rwa [Session.target, hwrapper', Option.getD_some, (h.plainWrappers ht).carrier hwrapper']
  · obtain ⟨hprepared, hnone⟩ := h.unwrapped hunwrapped
    refine ⟨.inr (.inl hprepared), ?_⟩
    rw [Session.target, hnone, Option.getD_none]
    by_cases hsame : u.graph.carrier target = t.graph.carrier target
    · rw [hsame]
      exact .inl hname
    · refine .inr (h.carrier_cases hrank (fun _ => ?_) hsame)
      rwa [← (h.grows target).reference]

lemma Extends.carrier_of_cycle (hs : Extends g s) {definition : SchemaId}
    (hid : s.graph.actual definition = id) (href : (s.graph.node id).reference ≠ none)
    (hone : (s.graph.node id).oneOf = []) :
    s.graph.isReference (s.graph.carrier (s.target id)) := by
  rw [hs.target_of_oneOf hone, Graph.carrier_of_oneOf hone, Graph.isReference,
    Option.isSome_iff_ne_none, ← hid]
  apply Graph.actual_actual_reference
  rwa [hid]

end Session

namespace SessionM

variable {env : Environment} {s : Session} {entries : List (String × SchemaId)}

/-- The definition is none that gets a type, or its type has been named. -/
def Found (env : Environment) (s : Session) (definition : SchemaId) : Prop :=
  s.graph.isDefinitionType env.resolver.inlineNamedAny (s.graph.actual definition) →
    ∃ name, s.nameOf? (s.graph.carrier (s.target (s.graph.actual definition))) = some name

lemma registerEach_again (hsettled : ∀ entry ∈ entries,
      s.graph.isDefinitionType env.resolver.inlineNamedAny (s.graph.actual entry.2) →
        s.Settled (s.graph.actual entry.2))
    {prepared : List SchemaId} (hsub : s.prepared ⊆ prepared) :
    (∃ prepared', s.prepared ⊆ prepared' ∧
      registerEach typeName entries env { s with prepared } =
        (.ok (), { s with prepared := prepared' })) ↔
      ∀ entry ∈ entries, Found env s entry.2 := by
  induction entries generalizing prepared with
  | nil => exact iff_of_true ⟨prepared, hsub, rfl⟩ (by simp)
  | cons entry rest ih =>
    obtain ⟨key, definition⟩ := entry
    have ih {prepared : List SchemaId} (hsub : s.prepared ⊆ prepared) :=
      ih (fun entry hentry => hsettled entry (List.mem_cons_of_mem _ hentry)) hsub
    rw [List.forall_mem_cons]
    cases hdef : s.graph.isDefinitionType env.resolver.inlineNamedAny
        (s.graph.actual definition) with
    | false =>
      have hfound : Found env s definition := fun h => by simp [hdef] at h
      rw [registerEach_passed (by exact hdef), ih hsub, and_iff_right hfound]
    | true =>
      obtain ⟨prepared', hsub', hprepare⟩ :=
        (hsettled _ List.mem_cons_self hdef).prepare hsub
      rw [registerEach_named (by exact hdef), hprepare]
      constructor
      · rintro ⟨last, hlast, h⟩
        obtain ⟨name, t, hname, hrest⟩ := bind_eq_ok h
        obtain ⟨hfirst, hpost⟩ := (typeName_leads _ _).result hname
        have hlater := ((register_leads rest).result hrest).1
        -- A new name would still be there at the end.
        have htypes : s.types = t.types := by
          have hle : t.types.length ≤ s.types.length := hlater.types_prefix.length_le
          exact hfirst.types_prefix.eq_of_length_le hle
        have hnamed : s.nameOf?
            (s.graph.carrier (s.target (s.graph.actual definition))) = some name := by
          rw [Session.nameOf?, htypes]
          exact hpost
        rw [typeName_named (by exact hnamed)] at hname
        cases hname
        exact ⟨fun _ => ⟨name, hnamed⟩, (ih hsub').mp ⟨last, hlast, hrest⟩⟩
      · rintro ⟨hfound, hrest⟩
        obtain ⟨name, hnamed⟩ := hfound hdef
        rw [bind_ok (typeName_named (by exact hnamed) _)]
        exact (ih hsub').mpr hrest

lemma registerEach_split {before after : List (String × SchemaId)} {key : String} {id : SchemaId}
    {u : Session} (h : registerEach typeName (before ++ (key, id) :: after) env s = (.ok (), u)) :
    ∃ t, Session.Run env s t ∧ Session.Run env t u ∧
      (t.graph.isDefinitionType env.resolver.inlineNamedAny (t.graph.actual id) →
        ∃ target t' name, t.prepare (t.graph.actual id) = (target, t') ∧ Session.Run env t t' ∧
          Session.Run env t' u ∧ u.nameOf? (t'.graph.carrier target) = some name) := by
  obtain ⟨t, hbefore, hrest⟩ := registerEach_append h
  have hfirst := ((register_leads before).result hbefore).1
  have hlater := ((register_leads ((key, id) :: after)).result hrest).1
  refine ⟨t, hfirst, hlater, fun hdef => ?_⟩
  rw [registerEach_named hdef] at hrest
  obtain ⟨name, v, hname, hafter⟩ := bind_eq_ok hrest
  obtain ⟨hnames, hpost⟩ := (typeName_leads _ _).result hname
  have hend := ((register_leads after).result hafter).1
  exact ⟨_, _, name, rfl, .single (.prepare _ hdef), hnames.trans hend, hend.nameOf? hpost⟩

end SessionM

namespace Document

open SessionM

variable {text : String} {d : Document} {env : Environment} {s : Session}

lemma settled_and_found (hload : ofJson text = .ok d ∨ ofYaml text = .ok d)
    (hregister : SessionM.register d.definitions env { graph := d.graph } = (.ok (), s))
    {entry : String × SchemaId} (hentry : entry ∈ d.definitions) {id : SchemaId}
    (hid : s.graph.actual entry.2 = id)
    (hdef : s.graph.isDefinitionType env.resolver.inlineNamedAny id) :
    s.Settled id ∧ ((∃ name, s.nameOf? (s.graph.carrier (s.target id)) = some name) ∨
      s.graph.isReference (s.graph.carrier (s.target id)) ∨
      (d.graph.node id).discriminator = none ∧ (s.graph.node id).discriminator ≠ none) := by
  obtain ⟨root, hrepresents⟩ := represents_of_load hload
  obtain ⟨rank, hrank⟩ := hrepresents.exists_ranked
  obtain ⟨before, after, hsplit⟩ := List.append_of_mem hentry
  rw [SessionM.register, hsplit] at hregister
  obtain ⟨t, hfirst, hlater, hnamed⟩ := registerEach_split hregister
  have hwhole : Session.Run env { graph := d.graph } s := hfirst.trans hlater
  have hs := hwhole.extends (.start hrepresents.closed)
  cases href : (s.graph.node id).reference with
  | some next =>
    have hone : (s.graph.node id).oneOf = [] := by
      rw [(hwhole.grows id).oneOf]
      apply oneOf_of_reference hload
      rw [← (hwhole.grows id).reference, href]
      rfl
    exact ⟨.of_oneOf hone, .inr (.inl (hs.carrier_of_cycle hid (by simp [href]) hone))⟩
  | none =>
    have hbefore : t.graph.actual entry.2 = id := by
      rw [← hid] at href ⊢
      exact hlater.grows.actual_of_end href
    rw [hbefore] at hnamed
    cases hdef' : t.graph.isDefinitionType env.resolver.inlineNamedAny id with
    | false =>
      have hdefinition : entry.2 < d.graph.size :=
        (hrepresents.closed d.root).definitions entry hentry
      have hlt : id < t.graph.size := by
        rw [← hbefore]
        refine Graph.Closed.actual_lt ?_ (Nat.lt_of_lt_of_le hdefinition hfirst.size_le)
        exact (hfirst.extends (.start hrepresents.closed)).closed
      -- It has become a type by the discriminator of a hierarchy.
      obtain ⟨hone, hnone, hsome⟩ := hlater.discriminated hlt hdef' hdef
      refine ⟨.of_oneOf (by rw [(hlater.grows id).oneOf]; exact hone), .inr (.inr ⟨?_, hsome⟩)⟩
      exact (hfirst.grows id).discriminator_eq_none hnone
    | true =>
      obtain ⟨target, t', name, hprepare, hprepares, hafter, hname⟩ := hnamed hdef'
      have hbegin : Session.Run env { graph := d.graph } t' := hfirst.trans hprepares
      have hplain := hbegin.plainWrappers (.start d.graph)
      have hgrown := hrank.grows hbegin.grows hbegin.size_le
      obtain ⟨hsettled, hfound⟩ := hafter.settled_and_found hprepare hplain hgrown href hname
      refine ⟨hsettled, hfound.imp (fun h => ⟨name, h⟩) (.imp_right fun h => ?_)⟩
      exact ⟨(hbegin.grows id).discriminator_eq_none h.1, h.2⟩

/-- Registering once more changes nothing, exactly if every definition that gets a type is found
under the name of its carrier. One that is not either ends on a cycle of references, or it has
become a subtype of a hierarchy and got its first discriminator by that, so that it is not read as
it was when it got its name. -/
theorem register_again_iff (hload : ofJson text = .ok d ∨ ofYaml text = .ok d)
    (hregister : SessionM.register d.definitions env { graph := d.graph } = (.ok (), s)) :
    ((∀ n, ∃ prepared, s.prepared ⊆ prepared ∧
        (fun last : Except Failure Unit × Session =>
          SessionM.register d.definitions env last.2)^[n] (.ok (), s) =
            (.ok (), { s with prepared })) ↔
      ∀ entry ∈ d.definitions, Found env s entry.2) ∧
    ∀ entry ∈ d.definitions, ¬ Found env s entry.2 →
      s.graph.isReference (s.graph.carrier (s.target (s.graph.actual entry.2))) ∨
        (d.graph.node (s.graph.actual entry.2)).discriminator = none ∧
          Session.Shared s.graph s.wrappers (s.graph.actual entry.2) := by
  have hsettled : ∀ entry ∈ d.definitions,
      s.graph.isDefinitionType env.resolver.inlineNamedAny (s.graph.actual entry.2) →
        s.Settled (s.graph.actual entry.2) := fun entry hentry hdef =>
    (settled_and_found hload hregister hentry rfl hdef).1
  refine ⟨⟨fun h => ?_, fun hfound n => ?_⟩, fun entry hentry hlost => ?_⟩
  · exact (registerEach_again hsettled (List.Subset.refl _)).mp (h 1)
  · induction n with
    | zero => exact ⟨s.prepared, List.Subset.refl _, rfl⟩
    | succ n ih =>
      obtain ⟨prepared, hsub, h⟩ := ih
      rw [Function.iterate_succ_apply', h]
      exact (registerEach_again hsettled hsub).mpr hfound
  · rw [Found, Classical.not_imp] at hlost
    obtain ⟨hdef, hunnamed⟩ := hlost
    rcases (settled_and_found hload hregister hentry rfl hdef).2 with h | h | ⟨hnone, hsome⟩
    · exact absurd h hunnamed
    · exact .inl h
    · refine .inr ⟨hnone, ?_⟩
      obtain ⟨root, hrepresents⟩ := represents_of_load hload
      have hwhole := ((SessionM.register_leads d.definitions).result hregister).1
      obtain ⟨_, _, hhierarchies⟩ :=
        hwhole.hierarchies hrepresents.closed (oneOf_of_reference hload)
      by_contra hshared
      rw [hhierarchies.untouched _ hshared] at hsome
      exact hsome hnone

/-- `D` has one alternative, and then it becomes a pet. -/
def latePetText : String :=
  "\x7b\"$defs\":\x7b\"D\":\x7b\"type\":\"object\"," ++
    "\"oneOf\":[\x7b\"$ref\":\"#/$defs/A\"\x7d]\x7d," ++
    "\"A\":\x7b\x7d,\"Pet\":\x7b\"discriminator\":\x7b\"propertyName\":\"k\"\x7d," ++
    "\"oneOf\":[\x7b\"$ref\":\"#/$defs/D\"\x7d]\x7d\x7d\x7d"

def latePetSession (d : Document) : Except Failure Unit × Session :=
  SessionM.register d.definitions (.ofSettings {}) { graph := d.graph }

lemma latePet_registers :
    ∃ d, ofJson latePetText = .ok d ∧ (latePetSession d).1 = .ok () ∧
      (latePetSession d).2.types = [(2, "D"), (6, "Pet")] ∧
      (SessionM.register d.definitions (.ofSettings {}) (latePetSession d).2).1 = .ok () ∧
      (SessionM.register d.definitions (.ofSettings {}) (latePetSession d).2).2.types =
        [(2, "D"), (6, "Pet"), (1, "D2")] := by
  decide +kernel

theorem latePet_again_iff :
    ∃ d s, ofJson latePetText = .ok d ∧
      SessionM.register d.definitions (.ofSettings {}) { graph := d.graph } = (.ok (), s) ∧
      ((∀ n, ∃ prepared, s.prepared ⊆ prepared ∧
          (fun last : Except Failure Unit × Session =>
            SessionM.register d.definitions (.ofSettings {}) last.2)^[n] (.ok (), s) =
              (.ok (), { s with prepared })) ↔
        ∀ entry ∈ d.definitions, Found (.ofSettings {}) s entry.2) ∧
      ∀ entry ∈ d.definitions, ¬ Found (.ofSettings {}) s entry.2 →
        s.graph.isReference (s.graph.carrier (s.target (s.graph.actual entry.2))) ∨
          (d.graph.node (s.graph.actual entry.2)).discriminator = none ∧
            Session.Shared s.graph s.wrappers (s.graph.actual entry.2) := by
  obtain ⟨d, hload, hregisters, _⟩ := latePet_registers
  have hregister : SessionM.register d.definitions (.ofSettings {}) { graph := d.graph } =
      (.ok (), (latePetSession d).2) := Prod.ext hregisters rfl
  exact ⟨d, _, hload, hregister, register_again_iff (.inl hload) hregister⟩

/-- The second registration reads `D` as the pet that it has become, and gives it a second name. -/
theorem latePet_named_again :
    ∃ d s t, ofJson latePetText = .ok d ∧
      SessionM.register d.definitions (.ofSettings {}) { graph := d.graph } = (.ok (), s) ∧
      SessionM.register d.definitions (.ofSettings {}) s = (.ok (), t) ∧
      s.types = [(2, "D"), (6, "Pet")] ∧ t.types = [(2, "D"), (6, "Pet"), (1, "D2")] := by
  obtain ⟨d, hload, hregisters, htypes, hagain, htypes'⟩ := latePet_registers
  exact ⟨d, _, _, hload, Prod.ext hregisters rfl, Prod.ext hagain rfl, htypes, htypes'⟩

end Document

end SchemaTypes
