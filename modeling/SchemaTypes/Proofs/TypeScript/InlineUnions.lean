import SchemaTypes.Proofs.TypeScript.DictionaryValues
import SchemaTypes.Proofs.TypeScript.Unions

/-! Unions that are spelled out in place. Each alternative brings all of its members along, unless
the union is replaced by the only alternative that does not admit null; then the other ones are left
out. -/

namespace SchemaTypes

open Session SessionM

namespace TypeExpr

variable {e member : TypeExpr}

lemma mem_orNull {keyword : NullKeyword} (hne : member ≠ .nullKeyword keyword) (nullable : Bool) :
    member ∈ (e.orNull nullable keyword).unionMembers ↔ member ∈ e.unionMembers := by
  rw [orNull]
  split
  · rw [unionMembers, List.mem_append, List.mem_singleton, or_iff_left hne]
  · rfl

end TypeExpr

/-- A schema with alternatives, and with no type or values of its own. -/
structure Graph.IsUnion (g : Graph) (id : SchemaId) : Prop where
  types : (g.node id).types = []
  enumeration : (g.node id).enumeration = []
  oneOf_ne_nil : (g.node id).oneOf ≠ []

instance (g : Graph) (id : SchemaId) : Decidable (g.IsUnion id) :=
  decidable_of_iff ((g.node id).types = [] ∧ (g.node id).enumeration = [] ∧ (g.node id).oneOf ≠ [])
    ⟨fun ⟨h₁, h₂, h₃⟩ => ⟨h₁, h₂, h₃⟩, fun ⟨h₁, h₂, h₃⟩ => ⟨h₁, h₂, h₃⟩⟩

namespace Graph.IsUnion

variable {g : Graph} {id only : SchemaId}

lemma removeNullability_of_only (h : g.IsUnion id) (honly : g.solidAlternatives id = [only]) :
    g.removeNullability id = only := by
  simp [removeNullability, honly, Node.isEnumeration, h.enumeration, Node.isObject, Node.hasType,
    h.types]

lemma later {env : Environment} {s : Session} {rank : SchemaId → ℕ} (h : g.IsUnion id)
    (hclosed : g.Closed) (hrank : g.Ranked rank) (hrun : Run env { graph := g } s)
    (hid : id ∉ s.prepared) : s.graph.IsUnion id where
  types := by rw [(hrun.grows id).types, h.types]
  enumeration := by rw [(hrun.unprepared hclosed hrank hid).1, h.enumeration]
  oneOf_ne_nil := by
    rw [(hrun.grows id).oneOf]
    exact h.oneOf_ne_nil

end Graph.IsUnion

namespace SessionM

variable {env : Environment} {s t : Session} {id only : SchemaId} {e : TypeExpr}

/-- A union is spelled by its alternatives if it is used by itself. -/
lemma union_built {resolver : Resolver} (hunion : s.graph.IsUnion id)
    (href : (s.graph.node id).reference = none) (hwrapper : s.wrapper? id = none)
    (hself : s.graph.removeNullability id = id) (h : Built env resolver s t id e) :
    ∃ results, List.Forall₂ (fun alternative => AnsweredInPlace env s t
        (askAlternative resolver alternative)) (s.graph.node id).oneOf results ∧
      e = .join results.eraseDups := by
  obtain ⟨hno, hmembers, hone⟩ := hunion
  have hactual : s.graph.actual id = id := Graph.actual_of_reference href
  have husage : s.graph.resolvable env.resolver.inlineNamedAny id = id := by
    simp only [Graph.resolvable, hself, hactual, ite_self]
  have hspelled : s.spelledBy env id = id := by rw [spelledBy, husage, hactual]
  have hnode : s.spelledNode env id = s.graph.node id := by rw [spelledNode, hspelled]
  have hcontainer : (s.graph.node id).isContainer = false := by
    simp [Node.isContainer, Node.isArray, Node.isDictionary, Node.isObject, Node.hasType, hno]
  have hany : (s.graph.node id).isAny = false := by simp [Node.isAny, hone]
  have hnamed : (s.graph.generatesType env.resolver.inlineNamedAny id ||
      (s.graph.node id).isEnumeration) = false := by
    simp [Graph.generatesType, husage, href, Node.isObject, Node.hasType, hno, Node.isEnumeration,
      hmembers]
  cases h with
  | wrapper hsome =>
    rw [hspelled, hwrapper] at hsome
    cases hsome
  | named h =>
    rw [hnode, hnamed] at h
    cases h
  | again h | container h =>
    rw [hnode, hcontainer] at h
    cases h
  | anything h =>
    rw [hnode, hany] at h
    cases h
  | keyword _ hplain =>
    rw [hnode] at hplain
    exact absurd hplain (by simp [hno, hone])
  | union _ _ halternatives hresults =>
    rw [hnode, if_neg hone] at halternatives
    subst halternatives
    exact ⟨_, hresults, rfl⟩

lemma results_flat {g : Graph} (hs : Run env { graph := g } s)
    {alternatives : List (Option SchemaId)} {results : List TypeExpr}
    (hresults : List.Forall₂ (fun alternative => AnsweredInPlace env s t
      (askAlternative SessionM.resolve alternative)) alternatives results) :
    ∀ own ∈ results.eraseDups, ∀ member ∈ own.unionMembers, member.unionMembers = [member] := by
  intro own hown member hmember
  obtain ⟨alternative, _, u, v, hu, _, he, _⟩ :=
    Except.exists_of_forall₂_right hresults (List.mem_eraseDups.mp hown)
  cases alternative with
  | none =>
    cases he
    obtain rfl := List.mem_singleton.mp hmember
    rfl
  | some other => exact ((resolve_regular (hs.trans hu) he).members.2 member hmember).2

/-- A schema that is replaced by another one, which is not replaced in turn, is used like it. -/
lemma resolve_replaced (honly : s.graph.removeNullability id = only)
    (hself : s.graph.removeNullability only = only) (nullable : Bool) (hint : Option String) :
    SessionM.resolve id nullable hint env s = SessionM.resolve only nullable hint env s := by
  obtain ⟨depth, _, heq⟩ := resolve_eq_bare env s
  have husage : s.graph.resolvable env.resolver.inlineNamedAny id =
      s.graph.resolvable env.resolver.inlineNamedAny only := by
    simp only [Graph.resolvable, honly, hself]
  have hcarrier : s.graph.carrier id = s.graph.carrier only := by
    rw [Graph.carrier, Graph.carrier, honly, hself]
  rw [heq, heq, bind_apply, bind_apply, resolveBare_congr husage hcarrier]

end SessionM

namespace Document

variable {text : String} {d : Document} {env : Environment} {s t : Session} {id : SchemaId}
  {e : TypeExpr} {nullable : Bool} {hint : Option String}

lemma unprepared_after (hload : ofJson text = .ok d ∨ ofYaml text = .ok d) {calls : List Call}
    (hone : (d.graph.node id).oneOf ≠ [])
    (hinline : ∀ definition, d.Defines calls definition → d.graph.actual definition ≠ id) :
    id ∉ (({ graph := d.graph } : Session).after env calls).prepared := by
  have htraced : Traced env d.graph (d.Defines calls)
      (({ graph := d.graph } : Session).after env calls) := by
    refine Traced.calls (fun owner entry hentry => .inl ⟨owner, entry, hentry, rfl⟩)
      (fun definitions hmem entry hentry => .inr ⟨definitions, hmem, entry, hentry, rfl⟩) ?_
    exact .start env d.graph _
  intro hid
  obtain ⟨definition, steps, hdefined, hfollow⟩ := htraced.prepared id hid
  refine hinline definition hdefined ?_
  rw [hfollow]
  apply Graph.actual_of_follow
  rw [← hfollow, ← Option.not_isSome_iff_eq_none]
  exact fun href => hone (oneOf_of_reference hload id href)

/-- The answer for a usage stays the same, if nothing happens to the schemas that it uses. -/
lemma answered_again (hload : ofJson text = .ok d ∨ ofYaml text = .ok d)
    (hrun : Run env { graph := d.graph } s) (hid : id < s.graph.size)
    (hexpanding : t.expanding = s.expanding)
    (h : AnsweredInPlace env s t (SessionM.resolve id nullable hint) e)
    (hsteady : ∀ other, Relation.ReflTransGen s.graph.Uses id other → s.Steady t other)
    (hint' : Option String) : SessionM.resolve id nullable hint' env t = (.ok e, t) := by
  obtain ⟨u, v, hu, hplace, hresolved, hv⟩ := h
  refine resolves_again hload (hrun.trans hu) (Nat.lt_of_lt_of_le hid hu.size_le) hresolved hv
    (hexpanding.trans hplace.symm) (fun other hreach => ?_) hint'
  exact (hsteady other (Relation.ReflTransGen.mono (fun _ _ => hu.grows.uses) _ _ hreach)).later hu

/-- A union in place that is not replaced has all the members of its alternatives, as they are
resolved when their turn comes. -/
lemma alternative_members (hrun : Run env { graph := d.graph } s) (hunion : s.graph.IsUnion id)
    (href : (s.graph.node id).reference = none) (hwrapper : s.wrapper? id = none)
    (hself : s.graph.removeNullability id = id) {plain : TypeExpr}
    (h : Built env SessionM.resolve s t id plain) {a : SchemaId}
    (ha : some a ∈ (s.graph.node id).oneOf) :
    ∃ own, AnsweredInPlace env s t (SessionM.resolve a false none) own ∧
      ∀ member ∈ own.unionMembers, member ∈ plain.unionMembers := by
  obtain ⟨results, hresults, rfl⟩ := union_built hunion href hwrapper hself h
  obtain ⟨own, hown, hanswered⟩ := Except.exists_of_forall₂_left hresults ha
  refine ⟨own, hanswered, fun member hmember => ?_⟩
  exact (TypeExpr.mem_unionMembers_join (results_flat hrun hresults)).mpr
    ⟨own, List.mem_eraseDups.mpr hown, hmember⟩

/-- A union in place that is replaced by an alternative has the expression of this alternative, if
it is not replaced in turn. -/
lemma replaced_answered (hload : ofJson text = .ok d ∨ ofYaml text = .ok d)
    (hrun : Run env { graph := d.graph } s) {a : SchemaId} {plain : TypeExpr}
    (hreplaced : s.graph.removeNullability id = a) (hself : d.graph.removeNullability a = a)
    (h : SessionM.resolve id false hint env s = (.ok plain, t)) :
    AnsweredInPlace env s t (SessionM.resolve a false hint) plain := by
  obtain ⟨root, hrepresents⟩ := represents_of_load hload
  obtain ⟨rank, hrank⟩ := hrepresents.exists_ranked
  have hself' : s.graph.removeNullability a = a := by
    rcases Graph.removeNullability_grown hrun.grows hrun.expands hrank hrun.size_le
      (object_plain hload) with h | h
    · rw [h, hself]
    · exact h
  rw [resolve_replaced hreplaced hself'] at h
  exact ⟨s, t, .refl, rfl, h, .refl⟩

lemma answered_orNull {a : SchemaId} {plain : TypeExpr} (hrun : Run env { graph := d.graph } s)
    (h : AnsweredInPlace env s t (SessionM.resolve a false hint) plain) (nullable : Bool) :
    AnsweredInPlace env s t (SessionM.resolve a nullable hint)
      (plain.orNull nullable env.typescript.nullKeyword) := by
  obtain ⟨u, v, hu, hplace, hresolved, hv⟩ := h
  exact ⟨u, v, hu, hplace, resolve_orNull (hrun.trans hu) hresolved nullable, hv⟩

/-- Texts, flags, and numbers that may be null. -/
def scalarText : String :=
  "\x7b\"properties\":\x7b\"p\":\x7b\"oneOf\":[\x7b\"type\":\"string\"\x7d," ++
    "\x7b\"type\":[\"number\",\"null\"]\x7d,\x7b\"type\":\"boolean\"\x7d]\x7d\x7d\x7d"

def scalarExpr : TypeExpr := .union [.string, .number, .boolean, .null]

/-- What no definition of the document itself leads to. -/
lemma inline_of_definitions
    (h : ∀ owner < d.graph.size, ∀ entry ∈ (d.graph.node owner).definitions,
      d.graph.actual entry.2 ≠ id) :
    ∀ definition, d.Defines [] definition → d.graph.actual definition ≠ id := by
  rintro _ (⟨owner, entry, hentry, rfl⟩ | ⟨definitions, hmem, _⟩)
  · have howner := Graph.lt_size_of_ne Node.definitions (List.ne_nil_of_mem hentry)
    exact h owner howner entry hentry
  · cases hmem

lemma scalar_resolved :
    ∃ d, ofJson scalarText = .ok d ∧ d.graph.IsUnion 4 ∧ some 2 ∈ (d.graph.node 4).oneOf ∧
      d.graph.solidAlternatives 4 = [1, 3] ∧
      (∀ owner < d.graph.size, ∀ entry ∈ (d.graph.node owner).definitions,
        d.graph.actual entry.2 ≠ 4) ∧
      ∃ e, (SessionM.resolve 4 true none (.ofSettings {}) { graph := d.graph }).1 = .ok e ∧
        e = scalarExpr := by
  decide +kernel

/-- A union in place is resolved, and then one of its alternatives, which has a member that the
union does not have. -/
def LosesMember (d : Document) (env : Environment) (id a : SchemaId) (member : TypeExpr) : Prop :=
  let resolved := SessionM.resolve id (d.graph.isNullable env.resolver.dialect id) none env
    { graph := d.graph }
  d.graph.IsUnion id ∧ some a ∈ (d.graph.node id).oneOf ∧
    (∀ owner < d.graph.size, ∀ entry ∈ (d.graph.node owner).definitions,
      d.graph.actual entry.2 ≠ id) ∧
    (∃ e, resolved.1 = .ok e ∧ e ≠ .any ∧ member ∉ e.unionMembers) ∧
    (∃ own, (resolveMember SessionM.resolve a env resolved.2).1 = .ok own ∧
      member ∈ own.unionMembers) ∧
    member ≠ .nullKeyword .null ∧ member ≠ .nullKeyword .undefined

instance (d : Document) (env : Environment) (id a : SchemaId) (member : TypeExpr) :
    Decidable (d.LosesMember env id a member) :=
  inferInstanceAs (Decidable (_ ∧ _ ∧ _ ∧ _ ∧ _ ∧ _ ∧ _))

/-- Numbers, and texts that may be null. -/
def maybeNumberText : String :=
  "\x7b\"properties\":\x7b\"p\":\x7b\"oneOf\":[" ++
    "\x7b\"type\":[\"string\",\"null\"]\x7d,\x7b\"type\":\"number\"\x7d]\x7d\x7d\x7d"

/-- The only alternative that does not admit null would be replaced by its own alternative. -/
def innerText : String :=
  "\x7b\"definitions\":\x7b\"Pet\":\x7b\"type\":\"object\",\"properties\":\x7b" ++
    "\"y\":\x7b\x7d\x7d\x7d\x7d,\"properties\":\x7b\"p\":\x7b\"oneOf\":[" ++
    "\x7b\"type\":\"null\"\x7d,\x7b\"type\":\"object\",\"properties\":\x7b\"x\":\x7b\x7d\x7d," ++
    "\"oneOf\":[\x7b\"$ref\":\"#/definitions/Pet\"\x7d]\x7d]\x7d\x7d\x7d"

/-- The second alternative defines a hierarchy that the first one becomes part of. -/
def lateMemberText : String :=
  "\x7b\"definitions\":\x7b\"D\":\x7b\"type\":\"object\"\x7d\x7d,\"properties\":\x7b\"p\":\x7b" ++
    "\"oneOf\":[\x7b\"$ref\":\"#/definitions/D\"\x7d,\x7b\"type\":\"object\"," ++
    "\"properties\":\x7b\"x\":\x7b\x7d\x7d,\"definitions\":\x7b\"Base\":\x7b" ++
    "\"oneOf\":[\x7b\"$ref\":\"#/definitions/D\"\x7d]," ++
    "\"discriminator\":\x7b\"propertyName\":\"kind\"\x7d\x7d\x7d\x7d]\x7d\x7d\x7d"

def inliningAny : Environment := .ofSettings { resolver := { inlineNamedAny := true } }

end Document

end SchemaTypes
