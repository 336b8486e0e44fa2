import SchemaTypes.Proofs.Session.Operations
import SchemaTypes.Proofs.TypeScript.Plain

/-! The expressions for usages are built from keywords and from names that the session knows when
the expression is there. -/

namespace SchemaTypes

namespace TypeExpr

def keywords : List String := ["any", "number", "boolean", "string", "null", "undefined", "never"]

mutual

/-- The identifiers of an expression, at any nesting. -/
def idents : TypeExpr → List String
  | ident name => [name]
  | array element => idents element
  | tuple members => identsOfAll members
  | dictionary key value => idents key ++ idents value
  | union members => identsOfAll members

def identsOfAll : List TypeExpr → List String
  | [] => []
  | e :: rest => idents e ++ identsOfAll rest

end

lemma identsOfAll_eq (es : List TypeExpr) : identsOfAll es = es.flatMap idents := by
  induction es with
  | nil => rfl
  | cons e rest ih => rw [identsOfAll, ih, List.flatMap_cons]

lemma idents_unionMembers (e : TypeExpr) : e.unionMembers.flatMap idents = e.idents := by
  cases e with
  | union members => rw [unionMembers, idents, identsOfAll_eq]
  | ident | array | tuple | dictionary => simp [unionMembers]

lemma idents_join (es : List TypeExpr) : (join es).idents = es.flatMap idents := by
  have h : (es.flatMap unionMembers).flatMap idents = es.flatMap idents := by
    rw [List.flatMap_assoc]
    simp only [idents_unionMembers]
  rw [join]
  split
  · rename_i e he
    simpa [he] using h
  · rw [idents, identsOfAll_eq, h]

/-- Apart from keywords an expression has these names only. -/
def Over (names : List String) (e : TypeExpr) : Prop :=
  ∀ name ∈ e.idents, name ∈ keywords ∨ name ∈ names

variable {names more : List String}

lemma Over.mono {e : TypeExpr} (h : e.Over names) (hsub : names ⊆ more) : e.Over more :=
  fun name hname => (h name hname).imp_right fun hmem => hsub hmem

lemma over_keyword {name : String} (h : name ∈ keywords) : (ident name).Over names := by
  intro n hn
  rw [idents, List.mem_singleton] at hn
  exact .inl (hn ▸ h)

lemma over_name {name : String} (h : name ∈ names) : (ident name).Over names := by
  intro n hn
  rw [idents, List.mem_singleton] at hn
  exact .inr (hn ▸ h)

lemma over_array {e : TypeExpr} (h : e.Over names) : (array e).Over names := by
  simpa only [Over, idents] using h

lemma over_dictionary {key value : TypeExpr} (hkey : key.Over names) (hvalue : value.Over names) :
    (dictionary key value).Over names := by
  intro n hn
  rw [idents, List.mem_append] at hn
  exact hn.elim (hkey n) (hvalue n)

lemma over_tuple {es : List TypeExpr} (h : ∀ e ∈ es, e.Over names) : (tuple es).Over names := by
  intro n hn
  rw [idents, identsOfAll_eq, List.mem_flatMap] at hn
  obtain ⟨e, he, hn⟩ := hn
  exact h e he n hn

lemma over_join {es : List TypeExpr} (h : ∀ e ∈ es, e.Over names) : (join es).Over names := by
  intro n hn
  rw [idents_join, List.mem_flatMap] at hn
  obtain ⟨e, he, hn⟩ := hn
  exact h e he n hn

end TypeExpr

open TypeExpr

lemma Node.keyword_eq_ident (node : Node) : ∃ name ∈ keywords, node.keyword = .ident name := by
  unfold keyword
  split
  case h_6 => split <;> exact ⟨_, by decide, rfl⟩
  all_goals exact ⟨_, by decide, rfl⟩

namespace SessionM

variable {env : Environment} {s : Session}

/-- What is returned is over the names that the session has then. -/
abbrev Spells (env : Environment) (s : Session) (x : SessionM TypeExpr) : Prop :=
  Leads env s x fun e t => e.Over t.names

abbrev SpellsAll (env : Environment) (s : Session) (x : SessionM (List TypeExpr)) : Prop :=
  Leads env s x fun es t => ∀ e ∈ es, e.Over t.names

abbrev SpellsAny (env : Environment) (s : Session) (x : SessionM (Option TypeExpr)) : Prop :=
  Leads env s x fun e? t => ∀ e ∈ e?, e.Over t.names

lemma typeName_spells (id : SchemaId) (hint : Option String) :
    Spells env s (do return .ident (← typeName id hint)) :=
  (typeName_leads id hint).bind fun _ _ _ h => .pure (over_name (Session.mem_names h))

lemma spellNullable_spells {e : TypeExpr} (nullable : Bool) (h : e.Over s.names) :
    Spells env s (spellNullable nullable e) := by
  have hnull : (nullKeyword env.typescript.nullKeyword).Over s.names := by
    apply over_keyword
    cases env.typescript.nullKeyword <;> decide
  refine .look read_apply ?_
  simp only
  split
  · exact .pure h
  · refine .pure (over_join ?_)
    intro e' he'
    rcases List.mem_pair.mp he' with rfl | rfl
    · exact h
    · exact hnull

lemma getD_over {e? : Option TypeExpr} {name : String} {names : List String}
    (he : ∀ e ∈ e?, e.Over names) (h : name ∈ keywords) : (e?.getD (ident name)).Over names := by
  cases e? with
  | none => exact over_keyword h
  | some e => exact he e rfl

lemma addDistinct_over {found : List TypeExpr} {e : TypeExpr} {names : List String}
    (hfound : ∀ e ∈ found, e.Over names) (he : e.Over names) :
    ∀ e' ∈ if found.contains e then found else found ++ [e], e'.Over names := by
  split
  · exact hfound
  · intro e' he'
    rcases List.mem_append.mp he' with h | h
    · exact hfound e' h
    · exact List.mem_singleton.mp h ▸ he

variable {resolve : Resolver}

section

variable (hresolve : ∀ id nullable hint s, Spells env s (resolve id nullable hint))

include hresolve

lemma resolveMember_spells (id : SchemaId) : Spells env s (resolveMember resolve id) :=
  .look graph_apply (.look dialect_apply (hresolve id _ none s))

lemma resolveMembers_spells (ids : List SchemaId) :
    SpellsAll env s (resolveMembers resolve ids) := by
  induction ids generalizing s with
  | nil => exact .pure (by simp)
  | cons id rest ih =>
    refine (resolveMember_spells hresolve id).bind fun e t _ he => ?_
    refine ih.bind fun es u hrun hes => .pure ?_
    exact List.forall_mem_cons.mpr ⟨he.mono hrun.names_subset, hes⟩

lemma resolveDistinct_spells {found : List TypeExpr} (usages : List (SchemaId × Bool))
    (hfound : ∀ e ∈ found, e.Over s.names) :
    SpellsAll env s (resolveDistinct resolve found usages) := by
  induction usages generalizing s found with
  | nil => exact .pure hfound
  | cons usage rest ih =>
    obtain ⟨id, nullable⟩ := usage
    refine (hresolve id nullable none s).bind fun e t hrun he => ih ?_
    exact addDistinct_over (fun e' he' => (hfound e' he').mono hrun.names_subset) he

lemma dictionaryValue_spells (id : SchemaId) :
    SpellsAny env s (dictionaryValue resolve id) := by
  refine .look graph_apply ?_
  simp only
  split
  · refine (resolveMember_spells hresolve _).bind fun e t _ he => .pure ?_
    rintro e' ⟨⟩
    exact he
  · split
    · refine .look dialect_apply ?_
      refine (resolveDistinct_spells hresolve _ (by simp)).bind fun es t _ hes => ?_
      split
      · refine .pure ?_
        rintro e' ⟨⟩
        exact hes _ (List.mem_singleton_self _)
      · exact .pure (by simp)
    · exact .pure (by simp)

lemma dictionaryKey_spells (id : SchemaId) : SpellsAny env s (dictionaryKey resolve id) := by
  refine .look graph_apply ?_
  split
  · refine (resolveMember_spells hresolve _).bind fun e t _ he => .pure ?_
    rintro e' ⟨⟩
    exact he
  · exact .pure (by simp)

lemma spellContainer_spells (id : SchemaId) : Spells env s (spellContainer resolve id) := by
  refine .look graph_apply ?_
  simp only
  split
  · split
    · exact (resolveMembers_spells hresolve _).bind fun es t _ hes => .pure (over_tuple hes)
    · exact (resolveMember_spells hresolve _).bind fun e t _ he => .pure (over_array he)
    · exact .pure (over_array (over_keyword (by decide)))
  · refine (dictionaryKey_spells hresolve id).bind fun key t _ hkey => ?_
    refine (dictionaryValue_spells hresolve id).bind fun value u hrun hvalue => .pure ?_
    have hkey' : (key.getD .string).Over t.names := getD_over hkey (by decide)
    exact over_dictionary (hkey'.mono hrun.names_subset) (getD_over hvalue (by decide))

lemma resolveAlternatives_spells {found : List TypeExpr} (alternatives : List (Option SchemaId))
    (hfound : ∀ e ∈ found, e.Over s.names) :
    SpellsAll env s (resolveAlternatives resolve found alternatives) := by
  induction alternatives generalizing s found with
  | nil => exact .pure hfound
  | cons alternative rest ih =>
    have hnext : ∀ e t, Session.Run env s t → e.Over t.names → SpellsAll env t
        (resolveAlternatives resolve (if found.contains e then found else found ++ [e]) rest) :=
      fun e t hrun he =>
        ih (addDistinct_over (fun e' he' => (hfound e' he').mono hrun.names_subset) he)
    cases alternative with
    | some id => exact (hresolve id false none s).bind hnext
    | none => exact Leads.bind (.pure (over_keyword (by decide))) hnext

lemma spellUnion_spells (alternatives : List (Option SchemaId)) :
    Spells env s (spellUnion resolve alternatives) :=
  (resolveAlternatives_spells hresolve alternatives (by simp)).bind fun _ _ _ hes =>
    .pure (over_join hes)

lemma resolveContainer_spells (id : SchemaId) (hint : Option String) :
    Spells env s (resolveContainer resolve id hint) := by
  refine .look get_apply ?_
  split
  · rename_i name h
    exact .pure (over_name (Session.mem_names h))
  · exact typeName_spells id _
  · refine Leads.bind (Q := fun e t => e.Over t.names) ?_ fun e t _ he => ?_
    · refine Leads.within (.beginExpansion id hint) (fun _ => .endExpansion id) ?_
        fun _ _ h => h
      exact spellContainer_spells hresolve id
    · refine .look get_apply ?_
      split
      · rename_i name h
        exact .pure (over_name (Session.mem_names h))
      · exact .pure he

lemma resolvePlain_spells (node : Node) : Spells env s (resolvePlain resolve node) := by
  cases node.plain with
  | keyword _ h =>
    obtain ⟨name, hname, heq⟩ := node.keyword_eq_ident
    rw [h, heq]
    exact .pure (over_keyword hname)
  | union alternatives _ _ _ h =>
    rw [h]
    exact spellUnion_spells hresolve alternatives

lemma resolveBare_spells (id : SchemaId) (hint : Option String) :
    Spells env s (resolveBare resolve id hint) := by
  refine .look get_apply (.look read_apply ?_)
  simp only
  split
  · exact typeName_spells _ hint
  · split
    · exact .pure (over_keyword (by decide))
    · split
      · exact typeName_spells id hint
      · split
        · exact resolveContainer_spells hresolve _ hint
        · exact resolvePlain_spells hresolve _

end

lemma resolveWithin_spells (depth : ℕ) (id : SchemaId) (nullable : Bool)
    (hint : Option String) : Spells env s (resolveWithin depth id nullable hint) := by
  induction depth generalizing id nullable hint s with
  | zero => exact .throw
  | succ depth ih =>
    have hbare : Spells env s (resolveBare (resolveWithin depth) id hint) :=
      resolveBare_spells (fun id nullable hint s => ih (s := s) id nullable hint) id hint
    exact hbare.bind fun e t _ he => spellNullable_spells nullable he

lemma resolve_spells (id : SchemaId) (nullable : Bool) (hint : Option String) :
    Spells env s (SessionM.resolve id nullable hint) :=
  .look graph_apply (resolveWithin_spells _ id nullable hint)

lemma aliasTarget_spells (id : SchemaId) : Spells env s (aliasTarget id) := by
  refine Leads.within (.beginExpansion id none) (fun _ => .endExpansion id) ?_ fun _ _ h => h
  exact spellContainer_spells (fun id nullable hint s => resolve_spells id nullable hint) id

end SessionM

end SchemaTypes
