import SchemaTypes.Proofs.TypeScript.Literals
import SchemaTypes.Proofs.TypeScript.Replay

/-! Which definitions of a document are declared. The root lists the first definition of each key,
and what it lists is declared if it gets a type. -/

namespace SchemaTypes

open Session SessionM

namespace Keywords

variable {k : Keywords Schema} {before after : List (Place × Schema)} {group : Section}
  {name : String} {schema : Schema}

lemma numberedDefinitions_eq (number : Place → SchemaId) :
    k.numberedDefinitions number = k.definitionPlaces.filterMap fun child =>
      child.1.definitionName?.map fun name => (name, number child.1) := by
  simp [definitionPlaces, numberedDefinitions, sections, List.filterMap_append,
    List.filterMap_map, Place.definitionName?]

lemma lookup_numberedDefinitions (number : Place → SchemaId)
    (hsplit : k.definitionPlaces = before ++ (.definition group name, schema) :: after)
    (hfirst : ∀ entry ∈ before, entry.1.definitionName? ≠ some name) :
    (k.numberedDefinitions number).lookup name = some (number (.definition group name)) := by
  have hbefore : (before.filterMap fun child =>
      child.1.definitionName?.map fun name => (name, number child.1)).lookup name = none := by
    rw [Entries.lookup_eq_none]
    intro hmem
    obtain ⟨entry, hentry, rfl⟩ := List.mem_map.mp hmem
    obtain ⟨child, hchild, heq⟩ := List.mem_filterMap.mp hentry
    obtain ⟨key, hkey, rfl⟩ := Option.map_eq_some_iff.mp heq
    exact hfirst child hchild hkey
  rw [numberedDefinitions_eq, hsplit, List.filterMap_append, List.lookup_append, hbefore,
    Option.none_or]
  simp [Place.definitionName?]

end Keywords

lemma Graph.follow_of_size_le {g : Graph} {id : SchemaId} {steps : ℕ} (h : g.size ≤ steps) :
    g.follow steps id = g.follow (steps - g.size) (g.actual id) := by
  rw [actual, ← follow_add, Nat.add_sub_cancel' h]

namespace Session

variable {env : Environment} {s t t' : Session} {g : Graph} {id target : SchemaId}
  {rank : SchemaId → ℕ}

/-- The schemas by which a definition of the graph may be declared: itself, its wrapper or what it
is without null. On a cycle of references it is one of the cycle. -/
inductive StandsFor (g : Graph) (s : Session) (definition : SchemaId) : SchemaId → Prop
  | itself : StandsFor g s definition definition
  | wrapper (wrapper : SchemaId) (h : s.wrapper? definition = some wrapper) :
      StandsFor g s definition wrapper
  | alternative : StandsFor g s definition (g.carrier definition)
  | cycle (steps : ℕ) (h : g.isReference (g.carrier definition)) :
      StandsFor g s definition (g.follow steps (g.carrier definition))

lemma StandsFor.later {definition schema : SchemaId} (h : StandsFor g s definition schema)
    (hrun : Run env s t) : StandsFor g t definition schema := by
  cases h with
  | itself => exact .itself
  | wrapper wrapper h => exact .wrapper schema (hrun.wrapper? h)
  | alternative => exact .alternative
  | cycle steps h => exact .cycle steps h

/-- What lies behind a schema later, lies behind it now or is on the same cycle of references. -/
lemma Run.standsFor_actual (hrun : Run env { graph := g } t) {definition : SchemaId}
    (hid : g.carrier definition = g.actual id) :
    StandsFor g s definition (t.graph.actual id) := by
  by_cases href : g.isReference (g.carrier definition)
  · have hfollow : t.graph.actual id = g.follow (t.graph.size - g.size) (g.carrier definition) := by
      rw [Graph.actual, hrun.grows.follow, Graph.follow_of_size_le hrun.size_le, hid]
    rw [hfollow]
    exact .cycle _ href
  · have hend : (g.node (g.actual id)).reference = none := by
      rw [Graph.isReference, hid] at href
      simpa using href
    rw [show t.graph.actual id = g.actual id from hrun.grows.actual_of_ended hend, ← hid]
    exact .alternative

lemma Run.standsFor_carrier (hrank : g.Ranked rank)
    (hplain : (g.node id).isObject → (g.node id).reference = none)
    (hrun : Run env { graph := g } t) (hend : (g.node id).reference = none) :
    StandsFor g s id (t.graph.carrier id) := by
  rcases Graph.removeNullability_grown hrun.grows hrun.expands hrank hrun.size_le hplain with h | h
  · rw [Graph.carrier, h]
    exact hrun.standsFor_actual rfl
  · have hend' : (t.graph.node id).reference = none := by
      rw [(hrun.grows id).reference]
      exact hend
    rw [Graph.carrier, h, Graph.actual_of_reference hend']
    exact .itself

lemma Run.standsFor_reference (hclosed : g.Closed)
    (hone : ∀ id, (g.node id).reference.isSome → (g.node id).oneOf = [])
    (hrun : Run env { graph := g } t) (hprepares : Run env t t')
    (href : (g.node (g.actual id)).reference ≠ none)
    (hprepare : t.prepare (t.graph.actual id) = (target, t')) :
    StandsFor g s (g.actual id) (t'.graph.carrier target) := by
  have hwhole : Run env { graph := g } t' := hrun.trans hprepares
  have hactual : t.graph.actual id = g.follow t.graph.size id := hrun.grows.follow _ _
  have href' : (g.node (t.graph.actual id)).reference ≠ none := by
    intro hend
    rw [hactual] at hend
    rw [Graph.actual_of_follow hend] at href
    exact href hend
  have hone' : (t'.graph.node (t.graph.actual id)).oneOf = [] := by
    rw [(hwhole.grows _).oneOf]
    exact hone _ (Option.isSome_iff_ne_none.mpr href')
  have htarget : target = t.graph.actual id := by
    rcases prepare_settles hprepare with hwrapper | ⟨rfl, _⟩
    · have hsame := (hwhole.extends (.start hclosed)).target_of_oneOf hone'
      rwa [Session.target, hwrapper, Option.getD_some] at hsame
    · rfl
  have hcarrier : g.carrier (g.actual id) = g.actual (g.actual id) :=
    Graph.carrier_of_oneOf (hone _ (Option.isSome_iff_ne_none.mpr href))
  have hlast : t'.graph.carrier target = g.follow (t.graph.size + t'.graph.size) id := by
    rw [htarget, Graph.carrier_of_oneOf hone', Graph.follow_add, ← hactual]
    exact hwhole.grows.follow _ _
  have hsize : g.size ≤ t.graph.size := hrun.size_le
  have hsize' : g.size ≤ t'.graph.size := hwhole.size_le
  rw [hlast, Graph.follow_of_size_le (by omega), Graph.follow_of_size_le (by omega), ← hcarrier]
  refine .cycle _ ?_
  rw [Graph.isReference, hcarrier, Option.isSome_iff_ne_none]
  exact Graph.actual_actual_reference href

/-- What gets its name for a definition, as it is read when its turn comes, stands for it. -/
lemma Run.standsFor_prepared (hclosed : g.Closed) (hrank : g.Ranked rank)
    (hone : ∀ id, (g.node id).reference.isSome → (g.node id).oneOf = [])
    (hplain : ∀ id, (g.node id).isObject → (g.node id).reference = none)
    (hrun : Run env { graph := g } t) (hprepares : Run env t t') (hlater : Run env t' s)
    (hprepare : t.prepare (t.graph.actual id) = (target, t')) :
    StandsFor g s (g.actual id) (t'.graph.carrier target) := by
  have hwhole : Run env { graph := g } t' := hrun.trans hprepares
  by_cases href : (g.node (g.actual id)).reference = none
  case neg => exact hrun.standsFor_reference hclosed hone hprepares href hprepare
  have hsame : t.graph.actual id = g.actual id := hrun.grows.actual_of_ended href
  rw [hsame] at hprepare
  rcases prepare_settles hprepare with hwrapper | ⟨rfl, _⟩
  · rw [(hwhole.plainWrappers (.start g)).carrier hwrapper]
    exact .wrapper target (hlater.wrapper? hwrapper)
  · exact hwhole.standsFor_carrier hrank (hplain _) href

end Session

namespace Document

variable {text : String} {root : Keywords Schema} {d : Document} {env : Environment} {s : Session}

/-- One of these declarations is that of the schema. -/
def Declares (d : Document) (env : Environment) (s : Session) (ds : List Declaration)
    (id : SchemaId) : Prop :=
  ∃ name, s.nameOf? id = some name ∧
    ∃ decl ∈ ds, decl.name = name ∧ DeclaredBetween env (d.registered env) s (id, name) decl

lemma declares_of_named {ds : List Declaration} {id : SchemaId} {name : String}
    (hds : List.Forall₂ (DeclaredBetween env (d.registered env) s) s.types ds)
    (hname : s.nameOf? id = some name) : d.Declares env s ds id := by
  obtain ⟨before, after, htypes, _⟩ := List.lookup_eq_some_iff.mp hname
  have hmem : (id, name) ∈ s.types := by simp [htypes]
  obtain ⟨decl, hdecl, hbetween⟩ := Except.exists_of_forall₂_left hds hmem
  refine ⟨name, hname, decl, hdecl, ?_, hbetween⟩
  obtain ⟨u, v, _, hdeclare, _⟩ := hbetween
  exact ((declare_declares id name).result hdeclare).2.1

lemma Represents.isDefinitionType_of_reference (h : d.Represents root) {id : SchemaId}
    (href : (d.graph.node id).reference ≠ none) (inlineNamedAny : Bool) :
    d.graph.isDefinitionType inlineNamedAny id := by
  obtain ⟨target, isProperty, hnode⟩ := h.reference_plain (Option.isSome_iff_ne_none.mpr href)
  simp [Graph.isDefinitionType, hnode, Node.isAny, Node.isTuple, Node.isDictionary, Node.isArray,
    Node.isObject, Node.hasType, Node.hasNoType]

lemma Represents.isDefinitionType_later (h : d.Represents root) {t : Session} {id : SchemaId}
    (hrun : Run env { graph := d.graph } t)
    (hdef : d.graph.isDefinitionType env.resolver.inlineNamedAny (d.graph.actual id)) :
    t.graph.isDefinitionType env.resolver.inlineNamedAny (t.graph.actual id) := by
  refine hrun.grows.isDefinitionType ?_
  cases href : (d.graph.node (t.graph.actual id)).reference with
  | some target => exact h.isDefinitionType_of_reference (by simp [href]) _
  | none =>
    have hactual : t.graph.actual id = d.graph.follow t.graph.size id := hrun.grows.follow _ _
    rw [hactual] at href ⊢
    rwa [Graph.actual_of_follow href] at hdef

/-- A definition that the root lists and that gets a type is prepared and then named when
definitions are registered. -/
lemma registered_prepares (hload : ofJson text = .ok d ∨ ofYaml text = .ok d)
    (hregister : (d.register env { graph := d.graph }).1 = .ok ())
    {key : String} {id : SchemaId} (hentry : (key, id) ∈ d.definitions)
    (hdef : d.graph.isDefinitionType env.resolver.inlineNamedAny (d.graph.actual id)) :
    ∃ t target t' name, Run env { graph := d.graph } t ∧
      t.prepare (t.graph.actual id) = (target, t') ∧ Run env t t' ∧
      Run env t' (d.registered env) ∧
      (d.registered env).nameOf? (t'.graph.carrier target) = some name := by
  obtain ⟨root, hrepresents⟩ := represents_of_load hload
  have hall : d.register env { graph := d.graph } = (.ok (), d.registered env) :=
    Prod.ext hregister rfl
  obtain ⟨_, u, hdefinitions, hroot⟩ := bind_eq_ok hall
  have hend : Run env u (d.registered env) := (d.nameRoot_leads.result hroot).1
  obtain ⟨before, after, hsplit⟩ := List.append_of_mem hentry
  rw [SessionM.register, hsplit] at hdefinitions
  obtain ⟨t, hfirst, _, hnamed⟩ := registerEach_split hdefinitions
  obtain ⟨target, t', name, hprepare, hprepares, hlater, hname⟩ :=
    hnamed (hrepresents.isDefinitionType_later hfirst hdef)
  exact ⟨t, target, t', name, hfirst, hprepare, hprepares, hlater.trans hend, hend.nameOf? hname⟩

lemma registered_standsFor (hload : ofJson text = .ok d ∨ ofYaml text = .ok d)
    (hregister : (d.register env { graph := d.graph }).1 = .ok ())
    {key : String} {id : SchemaId} (hentry : (key, id) ∈ d.definitions)
    (hdef : d.graph.isDefinitionType env.resolver.inlineNamedAny (d.graph.actual id)) :
    ∃ schema name, (d.registered env).nameOf? schema = some name ∧
      (d.registered env).StandsFor d.graph (d.graph.actual id) schema := by
  obtain ⟨root, hrepresents⟩ := represents_of_load hload
  obtain ⟨rank, hrank⟩ := hrepresents.exists_ranked
  obtain ⟨t, target, t', name, hfirst, hprepare, hprepares, hlater, hname⟩ :=
    registered_prepares hload hregister hentry hdef
  refine ⟨_, name, hname, ?_⟩
  exact Run.standsFor_prepared hrepresents.closed hrank (oneOf_of_reference hload)
    (fun _ => object_plain hload) hfirst hprepares hlater hprepare

lemma emit_registered {files : List GeneratedFile}
    (hemit : d.emit env { graph := d.graph } = (.ok files, s)) :
    (d.register env { graph := d.graph }).1 = .ok () ∧ Run env (d.registered env) s := by
  obtain ⟨_, t, hregister, hrest⟩ := bind_eq_ok hemit
  obtain ⟨_, u, hlast, hpure⟩ := bind_eq_ok hrest
  cases hpure
  refine ⟨by rw [hregister], ?_⟩
  rw [registered, hregister]
  exact (SessionM.emit_leads.result hlast).1

lemma Represents.definition_listed (h : d.Represents root) {before after : List (Place × Schema)}
    {group : Section} {name : String} {schema : Schema}
    (hsplit : root.definitionPlaces = before ++ (.definition group name, schema) :: after)
    (hfirst : ∀ entry ∈ before, entry.1.definitionName? ≠ some name) :
    (name, root.number [.definition group name]) ∈ d.definitions := by
  have hroot := (h.node [] _ (.here _)).1.definitions_first name
  rw [h.number_root, Keywords.lookup_numberedDefinitions _ hsplit hfirst] at hroot
  obtain ⟨_, _, heq, _⟩ := List.lookup_eq_some_iff.mp hroot
  rw [Document.definitions, h.root_eq, heq]
  simp

def twoEnumsText : String :=
  "\x7b\"definitions\":\x7b\"A\":\x7b\"enum\":[\"a\"]\x7d\x7d," ++
    "\"$defs\":\x7b\"A\":\x7b\"enum\":[\"b\"]\x7d\x7d\x7d"

/-- A definition and one inside a list are references to each other. -/
def ringText : String :=
  "\x7b\"definitions\":\x7b\"A\":\x7b\"$ref\":\"#/definitions/X/definitions/B\"\x7d," ++
    "\"X\":\x7b\"type\":\"array\",\"definitions\":" ++
    "\x7b\"B\":\x7b\"$ref\":\"#/definitions/A\"\x7d\x7d\x7d\x7d," ++
    "\"properties\":\x7b\"p\":\x7b\"type\":\"string\"\x7d\x7d\x7d"

lemma twoEnums_emits :
    ∃ root, parseJson twoEnumsText = .ok root ∧ ∃ d, ofKeywords root = .ok d ∧
      root.number [.definition .definitions "A"] = 1 ∧
      d.graph.isDefinitionType false (d.graph.actual 1) ∧
      ∃ files, (d.emit (.ofSettings {}) { graph := d.graph }).1 = .ok files ∧ True := by
  decide +kernel

/-- A definition that gets a type and has no alternative in its place, while neither it nor a
wrapper of it is named in the end. -/
def Loses (d : Document) (env : Environment) (definition : SchemaId) : Prop :=
  let result := d.emit env { graph := d.graph }
  (∃ files, result.1 = .ok files ∧ True) ∧
    d.graph.isDefinitionType env.resolver.inlineNamedAny definition ∧
    d.graph.removeNullability definition = definition ∧
    result.2.nameOf? definition = none ∧ result.2.wrapper? definition = none

instance (d : Document) (env : Environment) (definition : SchemaId) :
    Decidable (d.Loses env definition) :=
  inferInstanceAs (Decidable (_ ∧ _))

end Document

end SchemaTypes
