import SchemaTypes.Proofs.Naming
import SchemaTypes.Proofs.TypeScript.Definitions

/-! After which keys definitions are named. A key is a hint for the schema that its entry leads to,
and the first entry that naming comes to decides. -/

namespace SchemaTypes

open Session SessionM

namespace Graph

/-- No schema says what it is to be called. -/
def Untitled (g : Graph) : Prop :=
  ∀ id < g.size, (g.node id).title = none ∧ (g.node id).extensions.lookup Naming.pinningKey = none

instance (g : Graph) : Decidable g.Untitled :=
  inferInstanceAs (Decidable (∀ id < g.size, _ ∧ _))

lemma Untitled.ownName {g : Graph} (h : g.Untitled) (id : SchemaId) :
    Naming.ownName (g.node id) = none := by
  by_cases hid : id < g.size
  · obtain ⟨htitle, hpinned⟩ := h id hid
    rw [Naming.ownName, Naming.pinnedName, htitle, hpinned]
    rfl
  · rw [node_of_size_le (Nat.le_of_not_lt hid)]
    rfl

/-- The schemas that an entry may name, besides a wrapper: what lies behind its references, or that
without null. -/
def LeadsTo (g : Graph) (definition target : SchemaId) : Prop :=
  g.actual definition = target ∨ g.carrier (g.actual definition) = target

/-- An entry with this key that leads to the schema is among the definitions, or among those of a
schema that some entry leads to. -/
inductive Finds (g : Graph) (key : String) (id : SchemaId) : List (String × SchemaId) → Prop
  | here {definitions : List (String × SchemaId)} (definition : SchemaId)
      (hentry : (key, definition) ∈ definitions) (hleads : g.LeadsTo definition id) :
      Finds g key id definitions
  | nested {definitions : List (String × SchemaId)} (entry : String × SchemaId) (owner : SchemaId)
      (hentry : entry ∈ definitions) (hleads : g.LeadsTo entry.2 owner)
      (h : Finds g key id (g.node owner).definitions) : Finds g key id definitions

variable {g : Graph} {key : String} {id definition : SchemaId}

lemma Finds.mono {definitions more : List (String × SchemaId)} (h : g.Finds key id definitions)
    (hsub : definitions ⊆ more) : g.Finds key id more := by
  cases h with
  | here definition hentry hleads => exact .here definition (hsub hentry) hleads
  | nested entry owner hentry hleads h => exact .nested entry owner (hsub hentry) hleads h

lemma not_finds_nil : ¬ g.Finds key id [] := by
  intro h
  cases h with
  | here _ hentry => cases hentry
  | nested _ _ hentry => cases hentry

lemma LeadsTo.lt (hg : g.Closed) (hdefinition : definition < g.size)
    (h : g.LeadsTo definition id) : id < g.size := by
  have hactual := hg.actual_lt hdefinition
  rcases h with rfl | rfl
  · exact hactual
  · exact hg.carrier_lt hactual

lemma reference_of_cycle (h : (g.node (g.actual id)).reference ≠ none) (steps : ℕ) :
    (g.node (g.follow steps (g.actual id))).reference ≠ none := by
  intro hend
  have hfollow : g.follow (g.size + steps) id = g.follow steps (g.actual id) := follow_add g _ _ _
  rw [← hfollow] at hend
  rw [actual_of_follow hend] at h
  exact h hend

end Graph

namespace Session

variable {env : Environment} {s t : Session} {g : Graph} {id wrapper : SchemaId}

/-- The schema has the name of the definition: it is the definition or its wrapper. -/
def Bears (s : Session) (definition id : SchemaId) : Prop :=
  id = definition ∨ s.wrapper? definition = some id

/-- The names that the definition has, by itself or by its wrapper, come from these keys. -/
structure Keyed (settings : Settings) (g : Graph) (definition : SchemaId) (keys : String → Prop)
    (s : Session) : Prop where
  run : Run (.ofSettings settings) { graph := g } s
  named : s.Named
  keys : ∀ id name, s.Bears definition id → s.nameOf? id = some name →
    ∃ key, keys key ∧ Naming.Derived settings.resolver.naming (Naming.keyName key) name

variable {settings : Settings} {definition : SchemaId} {keys more : String → Prop} {key : String}

lemma Keyed.start : Keyed settings g definition keys { graph := g } :=
  ⟨.refl, by simp [Named], by simp [nameOf?]⟩

lemma Keyed.mono (hs : Keyed settings g definition keys s) (hsub : ∀ key, keys key → more key) :
    Keyed settings g definition more s := by
  refine ⟨hs.run, hs.named, fun id name hid hname => ?_⟩
  obtain ⟨key, hkey, hderived⟩ := hs.keys id name hid hname
  exact ⟨key, hsub key hkey, hderived⟩

lemma Keyed.prepare (hs : Keyed settings g definition keys s)
    (hdef : s.graph.isDefinitionType settings.resolver.inlineNamedAny id) :
    Keyed settings g definition keys (s.prepare id).2 := by
  have hends : Ends (.ofSettings settings) s (SessionM.prepare id) := prepare_ends hdef
  refine ⟨hs.run.tail (.prepare id hdef), hends.1.named hs.named, fun other name hother hname => ?_⟩
  rw [nameOf?, prepare_types] at hname
  have hbears : s.Bears definition other := by
    refine hother.imp_right fun hwrapper => ?_
    rcases s.prepare_wrappers id with hsame | ⟨_, _, hnew⟩
    · rwa [wrapper?, hsame] at hwrapper
    rw [wrapper?, hnew, List.lookup_append, Option.or_eq_some_iff] at hwrapper
    rcases hwrapper with hold | ⟨_, hlast⟩
    · exact hold
    -- The new wrapper has no name yet.
    have hnone := hs.named.unnamed (Nat.le_refl s.graph.size)
    have heq : other = s.graph.size := by
      rw [List.lookup_cons, List.lookup_nil] at hlast
      split at hlast
      · exact (Option.some.inj hlast).symm
      · cases hlast
    rw [heq] at hname
    exact absurd (hname.symm.trans hnone) (by simp)
  exact hs.keys other name hbears hname

end Session

namespace SessionM

variable {settings : Settings} {s t : Session} {g : Graph} {id definition : SchemaId}
  {keys : String → Prop} {key : String}

lemma assign_keyed (hplain : ∀ id, Naming.ownName (g.node id) = none)
    (hs : s.Keyed settings g definition keys) (hid : id < s.graph.size)
    (hkey : s.Bears definition id → keys key) {name : String}
    (h : assign id (some key) (.ofSettings settings) s = (.ok name, t)) :
    t.Keyed settings g definition keys := by
  obtain ⟨hrun, hlast⟩ := (assign_leads id (some key)).result h
  have hends : Ends (.ofSettings settings) s (assign id (some key)) := assign_ends hid _
  have hnamed := hends.1.named hs.named
  rw [h] at hnamed
  cases hname : s.nameOf? id with
  | some name' =>
    rw [assign_named hname] at h
    cases h
    exact hs
  | none =>
    rcases assign_unnamed hname (some key) with ⟨e, heq, _⟩ | ⟨name', heq, hgenerated, _⟩
    · rw [heq] at h
      cases h
    rw [heq] at h
    cases h
    refine ⟨hs.run.trans hrun, hnamed, fun other name' hother hname' => ?_⟩
    by_cases hsame : other = id
    · subst hsame
      rw [hlast] at hname'
      cases hname'
      refine ⟨key, hkey hother, Naming.derived_of_key hgenerated ?_ rfl⟩
      change Naming.ownName (s.graph.node other) = none
      have hgrows : g.Grows s.graph := hs.run.grows
      rw [Naming.ownName_grows (hgrows other), hplain]
    · exact hs.keys other name' hother (nameOf?_of_give hsame hname')

/-- Naming after a key leaves names that come from the keys, if the key is one of them when the
schema bears the name of the definition, and so are those found below the schema. -/
def KeepsKeyed (settings : Settings) (g : Graph) (definition : SchemaId)
    (name : SchemaId → Option String → SessionM String) : Prop :=
  ∀ keys s id key n t, s.Keyed settings g definition keys → id < s.graph.size →
    (s.Bears definition (s.graph.carrier id) → keys key) →
    (∀ key', g.Finds key' definition (g.node (s.graph.carrier id)).definitions → keys key') →
    name id (some key) (.ofSettings settings) s = (.ok n, t) → t.Keyed settings g definition keys

end SessionM

namespace Document

section

variable {text : String} {d : Document} {settings : Settings} {s t : Session}
  {definition : SchemaId} {keys : String → Prop}
  (hload : ofJson text = .ok d ∨ ofYaml text = .ok d)

include hload

/-- What gets its name for an entry: a schema that the entry leads to, the wrapper of what lies
behind it, or a reference on a cycle. -/
lemma carrier_prepared {env : Environment} {entry target : SchemaId}
    (hrun : Run env { graph := d.graph } s)
    (hdef : s.graph.isDefinitionType env.resolver.inlineNamedAny (s.graph.actual entry))
    (hprepare : s.prepare (s.graph.actual entry) = (target, t)) :
    d.graph.LeadsTo entry (t.graph.carrier target) ∨
      t.wrapper? (d.graph.actual entry) = some (t.graph.carrier target) ∨
      (d.graph.node (t.graph.carrier target)).reference ≠ none := by
  obtain ⟨root, hrepresents⟩ := represents_of_load hload
  obtain ⟨rank, hrank⟩ := hrepresents.exists_ranked
  have hprepares : Run env s t := by
    have hstep : Step env s (s.prepare (s.graph.actual entry)).2 := .prepare _ hdef
    rw [hprepare] at hstep
    exact .single hstep
  have hstands := Run.standsFor_prepared hrepresents.closed hrank (oneOf_of_reference hload)
    (fun _ => object_plain hload) hrun hprepares .refl hprepare
  generalize t.graph.carrier target = schema at hstands ⊢
  cases hstands with
  | itself => exact .inl (.inl rfl)
  | wrapper wrapper h => exact .inr (.inl h)
  | alternative => exact .inl (.inr rfl)
  | cycle steps h =>
    refine .inr (.inr (Graph.reference_of_cycle ?_ steps))
    simpa [Graph.isReference, Graph.carrier, Option.isSome_iff_ne_none] using h

variable (hinline : (d.graph.node definition).reference = none)

include hinline

lemma carrier_kept (hkept : d.graph.removeNullability definition = definition)
    {env : Environment} (hrun : Run env { graph := d.graph } s) :
    s.graph.carrier definition = definition := by
  obtain ⟨root, hrepresents⟩ := represents_of_load hload
  obtain ⟨rank, hrank⟩ := hrepresents.exists_ranked
  have hsame : s.graph.removeNullability definition = definition := by
    rcases Graph.removeNullability_grown hrun.grows hrun.expands hrank hrun.size_le
      (object_plain hload) with h | h
    · exact h.trans hkept
    · exact h
  rw [Graph.carrier, hsame]
  apply Graph.actual_of_reference
  rw [(hrun.grows definition).reference, hinline]

lemma bears_prepared {entry schema : SchemaId} (ht : t.Extends d.graph)
    (hentry : entry < d.graph.size) (hdefinition : definition < d.graph.size)
    (hbears : t.Bears definition schema)
    (hschema : d.graph.LeadsTo entry schema ∨ t.wrapper? (d.graph.actual entry) = some schema ∨
      (d.graph.node schema).reference ≠ none) : d.graph.LeadsTo entry definition := by
  obtain ⟨root, hrepresents⟩ := represents_of_load hload
  rcases hbears with rfl | hwrapper
  · rcases hschema with hleads | hother | href
    · exact hleads
    · exact absurd hdefinition (Nat.not_lt.mpr (ht.size_le_wrapper hother))
    · exact absurd hinline href
  · have hsize := ht.size_le_wrapper hwrapper
    rcases hschema with hleads | hother | href
    · exact absurd (hleads.lt hrepresents.closed hentry) (Nat.not_lt.mpr hsize)
    · exact .inl (ht.wrapper?_inj hother hwrapper)
    · rw [Graph.node_of_size_le hsize] at href
      exact absurd rfl href

variable (hdefinition : definition < d.graph.size)

include hdefinition

/-- Names come from the keys where one entry is named, if all that it finds are among them. -/
lemma entry_keyed {name : SchemaId → Option String → SessionM String}
    (hname : KeepsKeyed settings d.graph definition name) {entry : SchemaId} {key n : String}
    (hs : s.Keyed settings d.graph definition keys) (hlt : entry < d.graph.size)
    (hfinds : ∀ found, d.graph.Finds found definition [(key, entry)] → keys found)
    (hdef : s.graph.isDefinitionType settings.resolver.inlineNamedAny (s.graph.actual entry))
    (h : name (s.prepare (s.graph.actual entry)).1 (some key) (.ofSettings settings)
      (s.prepare (s.graph.actual entry)).2 = (.ok n, t)) :
    t.Keyed settings d.graph definition keys := by
  obtain ⟨root, hrepresents⟩ := represents_of_load hload
  have hextends := hs.run.extends (.start hrepresents.closed)
  have hprepared := hs.prepare hdef
  have hextends' := hprepared.run.extends (.start hrepresents.closed)
  have hactual := hextends.closed.actual_lt (Nat.lt_of_lt_of_le hlt hextends.le_size)
  have htarget := @prepare_target_lt (.ofSettings settings) _ _ _ hextends hdef hactual
  have hcases := carrier_prepared hload hs.run hdef (Prod.eta _).symm
  refine hname keys _ _ key n t hprepared htarget ?_ ?_ h
  · intro hbears
    have hleads := bears_prepared hload hinline hextends' hlt hdefinition hbears hcases
    exact hfinds key (.here entry List.mem_cons_self hleads)
  · intro found hfound
    rcases hcases with hleads | hwrapper | href
    · exact hfinds found (.nested _ _ List.mem_cons_self hleads hfound)
    · rw [Graph.node_of_size_le (hextends'.size_le_wrapper hwrapper)] at hfound
      exact absurd hfound Graph.not_finds_nil
    · obtain ⟨_, _, hnode⟩ := hrepresents.reference_plain (Option.isSome_iff_ne_none.mpr href)
      rw [hnode] at hfound
      exact absurd hfound Graph.not_finds_nil

lemma registerEach_keyed {name : SchemaId → Option String → SessionM String}
    (hname : KeepsKeyed settings d.graph definition name) (entries : List (String × SchemaId))
    (hs : s.Keyed settings d.graph definition keys)
    (hrange : ∀ entry ∈ entries, entry.2 < d.graph.size)
    (hfinds : ∀ key, d.graph.Finds key definition entries → keys key)
    (h : registerEach name entries (.ofSettings settings) s = (.ok (), t)) :
    t.Keyed settings d.graph definition keys := by
  refine registerEach_keeps (fun key entry s n t hentry hs hdef hnamed => ?_) hs h
  have hsub : [(key, entry)] ⊆ entries := List.cons_subset.mpr ⟨hentry, List.nil_subset _⟩
  exact entry_keyed hload hinline hdefinition hname hs (hrange _ hentry)
    (fun found hfound => hfinds found (hfound.mono hsub)) hdef hnamed

variable (hplain : ∀ id, Naming.ownName (d.graph.node id) = none)

include hplain

lemma typeNameWithin_keyed (depth : ℕ) :
    KeepsKeyed settings d.graph definition (typeNameWithin depth) := by
  obtain ⟨root, hrepresents⟩ := represents_of_load hload
  induction depth with
  | zero =>
    intro keys s id key n t _ _ _ _ h
    cases h
  | succ depth ih =>
    intro keys s id key n t hs hid hkey hbelow h
    have hextends := hs.run.extends (.start hrepresents.closed)
    have hcarrier := hextends.closed.carrier_lt hid
    by_cases hleaf : (s.graph.node (s.graph.carrier id)).definitions = []
    case pos =>
      rw [typeNameWithin_leaf hleaf] at h
      exact assign_keyed hplain hs hcarrier hkey h
    rcases typeNameWithin_eq_ok h with
      ⟨_, rfl⟩ | ⟨u, ⟨_, rfl⟩ | ⟨hfree, v, hregister, rfl⟩, hassign⟩
    · exact hs
    · exact assign_keyed hplain hs hcarrier hkey hassign
    · have hbegin : (s.beginRegistration (s.graph.carrier id)).Keyed settings d.graph
          definition keys := ⟨hs.run.tail (.beginRegistration _ hfree), hs.named, hs.keys⟩
      rw [(show d.graph.Grows s.graph from hs.run.grows) _ |>.definitions] at hregister
      have hv := registerEach_keyed hload hinline hdefinition ih _ hbegin
        (hrepresents.closed _).definitions hbelow hregister
      have hend : (v.endRegistration (s.graph.carrier id)).Keyed settings d.graph
          definition keys := ⟨hv.run.tail (.endRegistration _), hv.named, hv.keys⟩
      have hextends' := hend.run.extends (.start hrepresents.closed)
      -- What declares something is one of the document, and no wrapper.
      have hlt : s.graph.carrier id < d.graph.size := by
        by_contra hge
        exact hleaf (hextends.node_empty (Nat.le_of_not_lt hge))
      refine assign_keyed hplain hend (Nat.lt_of_lt_of_le hlt hextends'.le_size) (fun hbears => ?_)
        hassign
      refine hkey (hbears.imp_right fun hwrapper => ?_)
      exact absurd hlt (Nat.not_lt.mpr (hextends'.size_le_wrapper hwrapper))

lemma typeName_keyed : KeepsKeyed settings d.graph definition typeName := by
  intro keys s id key n t hs hid hkey hbelow h
  rw [typeName, bind_ok graph_apply] at h
  exact typeNameWithin_keyed hload hinline hdefinition hplain _ keys s id key n t hs hid hkey
    hbelow h

/-- When the turn of the definition comes, it or its wrapper is named. The key is its own, one from
before, or one from below the definition, if it has no wrapper. -/
lemma prepared_named {key name : String} {target : SchemaId} {u : Session}
    (hkept : d.graph.removeNullability definition = definition)
    (hs : s.Keyed settings d.graph definition keys)
    (hdef : s.graph.isDefinitionType settings.resolver.inlineNamedAny definition)
    (hprepare : s.prepare definition = (target, t))
    (h : typeName target (some key) (.ofSettings settings) t = (.ok name, u)) :
    u.nameOf? target = some name ∧
      (u.wrapper? definition = some target ∨ target = definition ∧ u.Unwrapped definition) ∧
      u.Keyed settings d.graph definition fun found => found = key ∨ keys found ∨
        u.wrapper? definition = none ∧
          d.graph.Finds found definition (d.graph.node definition).definitions := by
  obtain ⟨root, hrepresents⟩ := represents_of_load hload
  have hextends := hs.run.extends (.start hrepresents.closed)
  have htarget := @prepare_target_lt (.ofSettings settings) _ _ _ hextends hdef
    (Nat.lt_of_lt_of_le hdefinition hextends.le_size)
  have ht := hs.prepare hdef
  rw [hprepare] at htarget ht
  obtain ⟨hrun, hlast⟩ := (typeName_leads target (some key)).result h
  have hsettles : u.wrapper? definition = some target ∨
      target = definition ∧ u.Unwrapped definition :=
    (prepare_settles hprepare).imp hrun.wrapper? (And.imp_right hrun.unwrapped)
  have hcarrier : t.graph.carrier target = target := by
    rcases prepare_settles hprepare with hwrapper | ⟨rfl, _⟩
    · exact (ht.run.plainWrappers (.start d.graph)).carrier hwrapper
    · exact carrier_kept hload hinline hkept ht.run
  rw [hcarrier] at hlast
  refine ⟨hlast, hsettles, ?_⟩
  refine typeName_keyed hload hinline hdefinition hplain _ t target key name u
    (ht.mono fun _ hkey => .inr (.inl hkey)) htarget (fun _ => .inl rfl) (fun found hfound => ?_) h
  rw [hcarrier] at hfound
  rcases hsettles with hwrapper | ⟨rfl, _, hnone⟩
  · have hextends' := Run.extends (ht.run.trans hrun) (.start hrepresents.closed)
    rw [Graph.node_of_size_le (hextends'.size_le_wrapper hwrapper)] at hfound
    exact absurd hfound Graph.not_finds_nil
  · exact .inr (.inr ⟨hnone, hfound⟩)

omit hdefinition

/-- A definition that is written inline and kept without its nullability is named by itself or by
its wrapper. The key is its own or that of an entry that was found before: by one that comes earlier
in the root, or below the definition, if it has no wrapper. -/
theorem definition_named_by_key {before after : List (String × SchemaId)} {key : String}
    (hsplit : d.definitions = before ++ (key, definition) :: after)
    (hdef : d.graph.isDefinitionType settings.resolver.inlineNamedAny definition)
    (hkept : d.graph.removeNullability definition = definition)
    (hregister : (d.register (.ofSettings settings) { graph := d.graph }).1 = .ok ()) :
    let s := d.registered (.ofSettings settings)
    ∃ name found, s.nameOf? ((s.wrapper? definition).getD definition) = some name ∧
      Naming.Derived settings.resolver.naming (Naming.keyName found) name ∧
      (found = key ∨ d.graph.Finds found definition before ∨
        s.wrapper? definition = none ∧
          d.graph.Finds found definition (d.graph.node definition).definitions) := by
  intro s
  obtain ⟨root, hrepresents⟩ := represents_of_load hload
  have hlisted : ∀ entry ∈ d.definitions, entry.2 < d.graph.size :=
    (hrepresents.closed d.root).definitions
  rw [hsplit] at hlisted
  have hdefinition : definition < d.graph.size := hlisted (key, definition) (by simp)
  have hall : d.register (.ofSettings settings) { graph := d.graph } = (.ok (), s) :=
    Prod.ext hregister rfl
  obtain ⟨_, u, hdefinitions, hroot⟩ := bind_eq_ok hall
  rw [SessionM.register, hsplit] at hdefinitions
  obtain ⟨t, hbefore, hrest⟩ := registerEach_append hdefinitions
  -- The entries before give the definition keys that they find.
  have ht : t.Keyed settings d.graph definition (d.graph.Finds · definition before) :=
    registerEach_keyed hload hinline hdefinition (typeName_keyed hload hinline hdefinition hplain)
      before .start (fun entry hentry => hlisted entry (List.mem_append_left _ hentry))
      (fun _ => id) hbefore
  have hgrows : d.graph.Grows t.graph := ht.run.grows
  have hself : t.graph.actual definition = definition := by
    apply Graph.actual_of_reference
    rw [(hgrows definition).reference, hinline]
  have hdef' := hgrows.isDefinitionType hdef
  rw [registerEach_named (by rw [hself]; exact hdef'), hself] at hrest
  obtain ⟨name, v, hnamed, hlater⟩ := bind_eq_ok hrest
  obtain ⟨hlast, hsettles, hv⟩ := prepared_named hload hinline hdefinition hplain hkept ht hdef'
    (Prod.eta (t.prepare definition)).symm hnamed
  -- What has been settled by then stays.
  have hafter : Run (.ofSettings settings) v u := ((registerEach_leads
    (fun id hint _ => (typeName_leads id hint).forget) after).result hlater).1
  have hend : Run (.ofSettings settings) v s := hafter.trans (d.nameRoot_leads.result hroot).1
  have hbears : v.Bears definition (t.prepare definition).1 :=
    hsettles.symm.imp_left fun h => h.1
  obtain ⟨found, hfound, hderived⟩ := hv.keys _ name hbears hlast
  refine ⟨name, found, ?_, hderived, hfound.imp_right (Or.imp_right (And.imp_left fun hnone => ?_))⟩
  · rcases hsettles with hwrapper | ⟨hself, hunwrapped⟩
    · rw [hend.wrapper? hwrapper, Option.getD_some]
      exact hend.nameOf? hlast
    · rw [(hend.unwrapped hunwrapped).2, Option.getD_none, ← hself]
      exact hend.nameOf? hlast
  · rcases hsettles with hwrapper | ⟨_, hunwrapped⟩
    · simp [hwrapper] at hnone
    · exact (hend.unwrapped hunwrapped).2

end

/-- The definition of the root is named by itself, in a document without titles. -/
def NamesDefinition (d : Document) (key : String) (definition : SchemaId) (name : String) : Prop :=
  (key, definition) ∈ d.definitions ∧ (d.graph.node definition).reference = none ∧
    d.graph.isDefinitionType false definition ∧
    d.graph.removeNullability definition = definition ∧ d.graph.Untitled ∧
    (d.register (.ofSettings {}) { graph := d.graph }).1 = .ok () ∧
    (d.registered (.ofSettings {})).wrapper? definition = none ∧
    (d.registered (.ofSettings {})).nameOf? definition = some name

instance (d : Document) (key : String) (definition : SchemaId) (name : String) :
    Decidable (d.NamesDefinition key definition name) :=
  inferInstanceAs (Decidable (_ ∧ _ ∧ _ ∧ _ ∧ _ ∧ _ ∧ _ ∧ _))

/-- An alias that comes before the definition it stands for. -/
def aliasText : String :=
  "\x7b\"$defs\":\x7b\"Alias\":\x7b\"$ref\":\"#/$defs/Pet\"\x7d," ++
    "\"Pet\":\x7b\"type\":\"object\"\x7d\x7d\x7d"

/-- An alias below a definition that comes before the one it stands for. -/
def nestedAliasText : String :=
  "\x7b\"$defs\":\x7b\"Zoo\":\x7b\"type\":\"object\",\"$defs\":" ++
    "\x7b\"Beast\":\x7b\"$ref\":\"#/$defs/Pet\"\x7d\x7d\x7d," ++
    "\"Pet\":\x7b\"type\":\"object\"\x7d\x7d\x7d"

/-- An alias below the definition that it stands for. -/
def loopText : String :=
  "\x7b\"$defs\":\x7b\"Loop\":\x7b\"type\":\"object\",\"$defs\":" ++
    "\x7b\"Again\":\x7b\"$ref\":\"#/$defs/Loop\"\x7d\x7d\x7d\x7d\x7d"

lemma loop_registers :
    ∃ d, ofJson loopText = .ok d ∧ d.definitions = [("Loop", 1)] ∧
      d.NamesDefinition "Loop" 1 "Again" := by
  decide +kernel

theorem loop_named_by_key :
    ∃ d, ofJson loopText = .ok d ∧
      let s := d.registered (.ofSettings {})
      ∃ name found, s.nameOf? ((s.wrapper? 1).getD 1) = some name ∧
        Naming.Derived {} (Naming.keyName found) name ∧
        (found = "Loop" ∨ d.graph.Finds found 1 [] ∨
          s.wrapper? 1 = none ∧ d.graph.Finds found 1 (d.graph.node 1).definitions) := by
  obtain ⟨d, hload, hentries, _, hinline, hdef, hkept, huntitled, hregister, _⟩ := loop_registers
  have hsplit : d.definitions = [] ++ ("Loop", 1) :: [] := hentries
  exact ⟨d, hload, definition_named_by_key (.inl hload) hinline huntitled.ownName hsplit hdef hkept
    hregister⟩

/-- An alias gives its key to a definition that comes later, also from below another one, and to the
definition that it is below. -/
theorem definitions_named_by_aliases :
    (∃ d, ofJson aliasText = .ok d ∧ d.NamesDefinition "Pet" 2 "Alias") ∧
      (∃ d, ofJson nestedAliasText = .ok d ∧ d.NamesDefinition "Pet" 3 "Beast") ∧
      (∃ d, ofJson loopText = .ok d ∧ d.NamesDefinition "Loop" 1 "Again") ∧
      ¬ Naming.Derived {} (Naming.keyName "Pet") "Alias" ∧
      ¬ Naming.Derived {} (Naming.keyName "Pet") "Beast" ∧
      ¬ Naming.Derived {} (Naming.keyName "Loop") "Again" := by
  obtain ⟨d, hload, _, hloop⟩ := loop_registers
  refine ⟨by decide +kernel, by decide +kernel, ⟨d, hload, hloop⟩, fun h => ?_, fun h => ?_,
    fun h => ?_⟩
  · exact absurd (h.isPrefix rfl) (by decide +kernel)
  · exact absurd (h.isPrefix rfl) (by decide +kernel)
  · exact absurd (h.isPrefix rfl) (by decide +kernel)

end Document

end SchemaTypes
