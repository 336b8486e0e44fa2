import SchemaTypes.Proofs.TypeScript.Answers
import SchemaTypes.Proofs.TypeScript.Grammar

/-! The expression of a usage, taken apart by one level. It is a name or a keyword, or it is put
together from the expressions of the usages inside, each of which was resolved on the way. -/

namespace SchemaTypes

open Session

namespace TypeExpr

/-- The expression with null, which some expressions stand for already. -/
def orNull (nullable : Bool) (keyword : NullKeyword) (e : TypeExpr) : TypeExpr :=
  if nullable && e != .any && e != .nullKeyword keyword then
    .union (e.unionMembers ++ [.nullKeyword keyword])
  else e

lemma join_nullKeyword {e : TypeExpr} (h : e.unionMembers ≠ []) (keyword : NullKeyword) :
    join [e, .nullKeyword keyword] = .union (e.unionMembers ++ [.nullKeyword keyword]) := by
  have hflat : [e, .nullKeyword keyword].flatMap unionMembers =
      e.unionMembers ++ [.nullKeyword keyword] := by
    simp [nullKeyword, unionMembers]
  rw [join, hflat]
  split
  · rename_i only heq
    simp_all [List.append_eq_singleton_iff]
  · rfl

end TypeExpr

lemma Node.keyword_regular (node : Node) : node.keyword.Regular := by
  have hkeywords : ∀ name ∈ TypeExpr.keywords, Text.isIdentifier name := by decide +kernel
  obtain ⟨name, hname, heq⟩ := node.keyword_eq_ident
  exact heq ▸ .ident (hkeywords name hname)

namespace SessionM

/-- A list or dictionary that is spelled out, from what it has inside. -/
inductive BuiltContainer (env : Environment) (resolver : Resolver) (s t : Session) (id : SchemaId) :
    TypeExpr → Prop
  | openList (harray : (s.graph.node id).isArray) (hitems : (s.graph.node id).items = none) :
      BuiltContainer env resolver s t id (.array .any)
  | list {item : SchemaId} {e : TypeExpr} (harray : (s.graph.node id).isArray)
      (hitems : (s.graph.node id).items = some (.each item))
      (he : Answered env s t (resolveMember resolver item) e) :
      BuiltContainer env resolver s t id (.array e)
  | tuple {items : List SchemaId} {es : List TypeExpr} (harray : (s.graph.node id).isArray)
      (hitems : (s.graph.node id).items = some (.tuple items))
      (hes : List.Forall₂ (fun item => Answered env s t (resolveMember resolver item)) items es) :
      BuiltContainer env resolver s t id (.tuple es)
  | dictionary {key value : Option TypeExpr} (harray : (s.graph.node id).isArray = false)
      (hkey : Answered env s t (dictionaryKey resolver id) key)
      (hvalue : Answered env s t (dictionaryValue resolver id) value) :
      BuiltContainer env resolver s t id (.dictionary (key.getD .string) (value.getD .any))

/-- How the expression of a usage that does not admit null comes about. -/
inductive Built (env : Environment) (resolver : Resolver) (s t : Session) (id : SchemaId) :
    TypeExpr → Prop
  | wrapper {wrapper : SchemaId} {name : String}
      (hwrapper : s.wrapper? (s.spelledBy env id) = some wrapper)
      (hname : t.nameOf? (s.graph.carrier wrapper) = some name) :
      Built env resolver s t id (.ident name)
  | named {name : String}
      (h : s.graph.generatesType env.resolver.inlineNamedAny id ||
        (s.spelledNode env id).isEnumeration)
      (hname : t.nameOf? (s.graph.carrier id) = some name) :
      Built env resolver s t id (.ident name)
  | again {schema : SchemaId} {name : String} (h : (s.spelledNode env id).isContainer)
      (hschema : schema = s.spelledBy env id ∨ schema = s.graph.carrier (s.spelledBy env id))
      (hname : t.nameOf? schema = some name) : Built env resolver s t id (.ident name)
  | container {e : TypeExpr} (h : (s.spelledNode env id).isContainer)
      (he : BuiltContainer env resolver s t (s.spelledBy env id) e) : Built env resolver s t id e
  | anything (h : (s.spelledNode env id).isAny) : Built env resolver s t id .any
  | keyword (h : (s.spelledNode env id).isContainer = false)
      (hplain : (s.spelledNode env id).types ≠ [] ∨
        (s.spelledNode env id).oneOf = [] ∧ (s.spelledNode env id).anyOf = []) :
      Built env resolver s t id (s.spelledNode env id).keyword
  | union {alternatives : List (Option SchemaId)} {results : List TypeExpr}
      (hno : (s.spelledNode env id).types = []) (hne : alternatives ≠ [])
      (halternatives : alternatives = if (s.spelledNode env id).oneOf = [] then
        (s.spelledNode env id).anyOf.map some else (s.spelledNode env id).oneOf)
      (hresults : List.Forall₂ (fun alternative => AnsweredInPlace env s t
        (askAlternative resolver alternative)) alternatives results) :
      Built env resolver s t id (.join results.eraseDups)

section

variable {env : Environment} {s t : Session} {resolver : Resolver} {id : SchemaId} {e : TypeExpr}

lemma BuiltContainer.outside {schema : SchemaId} (hint : Option String)
    (h : BuiltContainer env resolver (s.beginExpansion schema hint) t id e) :
    BuiltContainer env resolver s (t.endExpansion schema) id e := by
  have hbegin : Run env s (s.beginExpansion schema hint) := .single (.beginExpansion schema hint)
  have hend : Run env t (t.endExpansion schema) := .single (.endExpansion schema)
  cases h with
  | openList harray hitems => exact .openList harray hitems
  | list harray hitems he => exact .list harray hitems (he.mono hbegin hend)
  | tuple harray hitems hes =>
    exact .tuple harray hitems (hes.imp fun _ _ h => h.mono hbegin hend)
  | dictionary harray hkey hvalue =>
    exact .dictionary harray (hkey.mono hbegin hend) (hvalue.mono hbegin hend)

section

variable (hresolve : Proper env resolver)

include hresolve

lemma resolveMembers_answered {ids : List SchemaId} {es : List TypeExpr}
    (h : resolveMembers resolver ids env s = (.ok es, t)) :
    List.Forall₂ (fun id => Answered env s t (resolveMember resolver id)) ids es := by
  induction ids generalizing s es with
  | nil =>
    cases h
    exact .nil
  | cons id rest ih =>
    obtain ⟨e, u, he, h⟩ := bind_eq_ok h
    obtain ⟨es, v, hes, hpure⟩ := bind_eq_ok h
    cases hpure
    have hmember : Spells env s (resolveMember resolver id) :=
      resolveMember_spells hresolve.spells id
    have hrun := ((resolveMembers_spells (s := u) hresolve.spells rest).result hes).1
    refine .cons (answered_first he hrun) ?_
    exact (ih hes).imp fun _ _ h => h.mono (hmember.result he).1 .refl

lemma builtContainer (h : spellContainer resolver id env s = (.ok e, t)) :
    BuiltContainer env resolver s t id e := by
  rw [spellContainer, bind_ok graph_apply] at h
  cases harray : (s.graph.node id).isArray with
  | true =>
    cases hitems : (s.graph.node id).items with
    | none =>
      simp only [harray, if_true, hitems] at h
      cases h
      exact .openList harray hitems
    | some items =>
      cases items with
      | tuple items =>
        simp only [harray, if_true, hitems] at h
        obtain ⟨es, u, hes, hpure⟩ := bind_eq_ok h
        cases hpure
        exact .tuple harray hitems (resolveMembers_answered hresolve hes)
      | each item =>
        simp only [harray, if_true, hitems] at h
        obtain ⟨e, u, he, hpure⟩ := bind_eq_ok h
        cases hpure
        exact .list harray hitems (answered_first he .refl)
  | false =>
    simp only [harray, Bool.false_eq_true, if_false] at h
    obtain ⟨key, u, hkey, h⟩ := bind_eq_ok h
    obtain ⟨value, v, hvalue, hpure⟩ := bind_eq_ok h
    cases hpure
    have hasked : SpellsAny env s (dictionaryKey resolver id) :=
      dictionaryKey_spells hresolve.spells id
    have hanswered : SpellsAny env u (dictionaryValue resolver id) :=
      dictionaryValue_spells hresolve.spells id
    refine .dictionary harray (answered_first hkey (hanswered.result hvalue).1) ?_
    exact (answered_first hvalue .refl).mono (hasked.result hkey).1 .refl

lemma built_of_plain (hcontainer : (s.spelledNode env id).isContainer = false)
    (h : resolvePlain resolver (s.spelledNode env id) env s = (.ok e, t)) :
    Built env resolver s t id e := by
  cases (s.spelledNode env id).plain with
  | keyword hplain heq =>
    rw [heq] at h
    cases h
    exact .keyword hcontainer hplain
  | union alternatives hno hne halternatives heq =>
    rw [heq] at h
    obtain ⟨results, hresults, rfl⟩ := spellUnion_answered hresolve h
    exact .union hno hne halternatives hresults

lemma built_of_container {hint : Option String} (hcontainer : (s.spelledNode env id).isContainer)
    (h : resolveContainer resolver (s.spelledBy env id) hint env s = (.ok e, t)) :
    Built env resolver s t id e := by
  cases hname : s.nameOf? (s.spelledBy env id) with
  | some name =>
    rw [resolveContainer_named hname] at h
    cases h
    exact .again hcontainer (.inl rfl) hname
  | none =>
    cases houter : s.expanding.lookup (s.spelledBy env id) with
    | some outer =>
      rw [resolveContainer_inside hname houter] at h
      obtain ⟨name, u, hnamed, hpure⟩ := bind_eq_ok h
      cases hpure
      exact .again hcontainer (.inr rfl) ((typeName_leads _ _).result hnamed).2
    | none =>
      rw [resolveContainer_entered hname houter] at h
      obtain ⟨e', u, hwithin, hnamed⟩ := bind_eq_ok h
      obtain ⟨rfl, ⟨name, hgot, rfl⟩ | ⟨_, rfl⟩⟩ := namedOr_eq_ok hnamed
      · exact .again hcontainer (.inl rfl) hgot
      · obtain ⟨v, hspelled, rfl⟩ := within_eq_ok hwithin
        exact .container hcontainer ((builtContainer hresolve hspelled).outside hint)

lemma built_of_bare {hint : Option String} (h : resolveBare resolver id hint env s = (.ok e, t)) :
    Built env resolver s t id e := by
  cases route env s id hint with
  | wrapper wrapper hwrapper heq =>
    rw [heq] at h
    obtain ⟨name, u, hnamed, hpure⟩ := bind_eq_ok h
    cases hpure
    exact .wrapper hwrapper ((typeName_leads _ _).result hnamed).2
  | anything hany heq =>
    rw [heq] at h
    cases h
    exact .anything hany
  | named hnamed heq =>
    rw [heq] at h
    obtain ⟨name, u, hname, hpure⟩ := bind_eq_ok h
    cases hpure
    exact .named hnamed ((typeName_leads _ _).result hname).2
  | container hcontainer heq =>
    rw [heq] at h
    exact built_of_container hresolve hcontainer h
  | plain hplain heq =>
    rw [heq] at h
    exact built_of_plain hresolve hplain h

end

end

section

variable {env : Environment} {s t : Session} {resolver resolver' : Resolver} {id : SchemaId}
  {e : TypeExpr} (h : resolver.Carries env s resolver')

include h

lemma BuiltContainer.carried (he : BuiltContainer env resolver s t id e) :
    BuiltContainer env resolver' s t id e := by
  cases he with
  | openList harray hitems => exact .openList harray hitems
  | @list item _ harray hitems he =>
    have hmember := answered_carries h (resolveMember · item) (.resolveMember item) he
    exact .list harray hitems hmember
  | tuple harray hitems hes =>
    exact .tuple harray hitems (hes.imp fun item _ =>
      answered_carries h (resolveMember · item) (.resolveMember item))
  | dictionary harray hkey hvalue =>
    exact .dictionary harray (answered_carries h (dictionaryKey · id) (.dictionaryKey id) hkey)
      (answered_carries h (dictionaryValue · id) (.dictionaryValue id) hvalue)

lemma Built.carried (he : Built env resolver s t id e) : Built env resolver' s t id e := by
  cases he with
  | wrapper hwrapper hname => exact .wrapper hwrapper hname
  | named h hname => exact .named h hname
  | again h hschema hname => exact .again h hschema hname
  | container hcontainer he => exact .container hcontainer (he.carried h)
  | anything h => exact .anything h
  | keyword h hplain => exact .keyword h hplain
  | union hno hne halternatives hresults =>
    refine .union hno hne halternatives (hresults.imp fun alternative _ => ?_)
    refine answeredInPlace_carries h (askAlternative · alternative) ?_
    cases alternative with
    | none => exact .pure _
    | some id => exact .usage id false none

end

section

/-! Every expression is regular, so that its text stands for it alone. -/

variable {env : Environment} {g : Graph} {s t : Session} {resolver : Resolver} {id : SchemaId}
  {e : TypeExpr}

lemma regular_name {schema : SchemaId} {name : String} (hs : Run env { graph := g } s)
    (h : s.nameOf? schema = some name) : (TypeExpr.ident name).Regular :=
  .ident ((hs.namesApart (.start g)).identifiers name (mem_names h))

section

variable (hresolve : Proper env resolver)
  (hregular : ∀ id nullable hint u e v, Run env { graph := g } u →
    resolver id nullable hint env u = (.ok e, v) → e.Regular)

include hregular

lemma resolveMember_regular (h : Answered env s t (resolveMember resolver id) e)
    (hs : Run env { graph := g } s) : e.Regular := by
  obtain ⟨u, v, hu, he, _⟩ := h
  rw [resolveMember, bind_ok graph_apply, bind_ok dialect_apply] at he
  exact hregular _ _ _ _ _ _ (hs.trans hu) he

lemma dictionaryKey_regular {key : Option TypeExpr}
    (h : Answered env s t (dictionaryKey resolver id) key) (hs : Run env { graph := g } s) :
    (key.getD .string).Regular := by
  obtain ⟨u, v, hu, hkey, _⟩ := h
  rw [dictionaryKey, bind_ok graph_apply] at hkey
  cases hschema : (u.graph.node id).dictionaryKey with
  | none =>
    simp only [hschema] at hkey
    cases hkey
    exact .ident (by decide +kernel)
  | some schema =>
    simp only [hschema] at hkey
    obtain ⟨e, w, he, hpure⟩ := bind_eq_ok hkey
    cases hpure
    exact resolveMember_regular hregular (answered_first he .refl) (hs.trans hu)

include hresolve in
lemma dictionaryValue_regular {value : Option TypeExpr}
    (h : Answered env s t (dictionaryValue resolver id) value) (hs : Run env { graph := g } s) :
    (value.getD .any).Regular := by
  obtain ⟨u, v, hu, hvalue, _⟩ := h
  have hany : TypeExpr.any.Regular := .ident (by decide +kernel)
  cases hadditional : (u.graph.node id).additional with
  | some additional =>
    rw [dictionaryValue_additional hadditional] at hvalue
    obtain ⟨e, w, he, hpure⟩ := bind_eq_ok hvalue
    cases hpure
    exact resolveMember_regular hregular (answered_first he .refl) (hs.trans hu)
  | none =>
    cases hopen : (u.graph.node id).closed && !(u.graph.node id).patterns.isEmpty with
    | false =>
      rw [dictionaryValue_open hadditional hopen] at hvalue
      cases hvalue
      exact hany
    | true =>
      obtain ⟨hclosed, hmany⟩ := Bool.and_eq_true_iff.mp hopen
      rw [dictionaryValue_patterns hadditional hclosed (by simpa using hmany)] at hvalue
      obtain ⟨es, w, hes, hpure⟩ := bind_eq_ok hvalue
      cases hpure
      have hask (pattern : String × SchemaId) := hresolve.leads pattern.2
        (u.graph.isNullable env.resolver.dialect pattern.2) none
      obtain ⟨_, results, hresults, rfl⟩ := askDistinct_answered hask hes
      rw [TypeExpr.foldl_addDistinct]
      cases hsingle : TypeExpr.single? results.eraseDups with
      | none => exact hany
      | some e =>
        have hmem : e ∈ results := List.mem_eraseDups.mp (TypeExpr.mem_of_single? hsingle)
        obtain ⟨pattern, _, u', _, hu', _, he, _⟩ := Except.exists_of_forall₂_right hresults hmem
        exact hregular _ _ _ _ _ _ ((hs.trans hu).trans hu') he

include hresolve

lemma BuiltContainer.regular (h : BuiltContainer env resolver s t id e)
    (hs : Run env { graph := g } s) : e.Regular := by
  cases h with
  | openList => exact .array (.ident (by decide +kernel))
  | list _ _ he => exact .array (resolveMember_regular hregular he hs)
  | tuple _ _ hes =>
    refine .tuple fun e he => ?_
    obtain ⟨item, _, hitem⟩ := Except.exists_of_forall₂_right hes he
    exact resolveMember_regular hregular hitem hs
  | dictionary _ hkey hvalue =>
    exact .dictionary (dictionaryKey_regular hregular hkey hs)
      (dictionaryValue_regular hresolve hregular hvalue hs)

lemma Built.regular (h : Built env resolver s t id e) (hs : Run env { graph := g } s)
    (hrun : Run env s t) : e.Regular := by
  cases h with
  | wrapper _ hname => exact regular_name (hs.trans hrun) hname
  | named _ hname => exact regular_name (hs.trans hrun) hname
  | again _ _ hname => exact regular_name (hs.trans hrun) hname
  | container _ he => exact he.regular hresolve hregular hs
  | anything => exact .ident (by decide +kernel)
  | keyword => exact (s.spelledNode env id).keyword_regular
  | @union alternatives results _ hne _ hresults =>
    refine .join (fun e he => ?_) ?_
    · obtain ⟨alternative, _, u, v, hu, _, he, _⟩ :=
        Except.exists_of_forall₂_right hresults (List.mem_eraseDups.mp he)
      cases alternative with
      | none =>
        cases he
        exact .ident (by decide +kernel)
      | some id => exact hregular _ _ _ _ _ _ (hs.trans hu) he
    · obtain ⟨alternative, halternative⟩ := List.exists_mem_of_ne_nil _ hne
      obtain ⟨e, he, _⟩ := Except.exists_of_forall₂_left hresults halternative
      exact List.ne_nil_of_mem (List.mem_eraseDups.mpr he)

end

lemma spellNullable_orNull (h : e.Regular) (nullable : Bool) :
    spellNullable nullable e env s = (.ok (e.orNull nullable env.typescript.nullKeyword), s) := by
  rw [spellNullable, bind_ok read_apply]
  simp only [TypeExpr.orNull, ← TypeExpr.join_nullKeyword h.members.1]
  cases nullable <;> cases hany : e == .any <;>
    cases hnull : e == .nullKeyword env.typescript.nullKeyword <;> simp_all

lemma orNull_regular (h : e.Regular) (nullable : Bool) (keyword : NullKeyword) :
    (e.orNull nullable keyword).Regular := by
  have hnull : (TypeExpr.nullKeyword keyword).Regular :=
    .ident (by cases keyword <;> decide +kernel)
  rw [TypeExpr.orNull, ← TypeExpr.join_nullKeyword h.members.1]
  split
  · exact .join (List.forall_mem_cons.mpr ⟨h, List.forall_mem_singleton.mpr hnull⟩) (by simp)
  · exact h

lemma resolveWithin_regular {depth : ℕ} {nullable : Bool} {hint : Option String}
    (hs : Run env { graph := g } s)
    (h : resolveWithin depth id nullable hint env s = (.ok e, t)) : e.Regular := by
  induction depth generalizing id nullable hint s e t with
  | zero => cases h
  | succ depth ih =>
    obtain ⟨plain, u, hbare, hspelled⟩ := bind_eq_ok h
    have hresolve := resolveWithin_proper env depth
    have hrun := ((resolveBare_spells (s := s) hresolve.spells id hint).result hbare).1
    have hplain := (built_of_bare hresolve hbare).regular hresolve
      (fun _ _ _ _ _ _ hu hu' => ih hu hu') hs hrun
    rw [spellNullable_orNull hplain] at hspelled
    cases hspelled
    exact orNull_regular hplain nullable _

lemma resolve_regular {nullable : Bool} {hint : Option String} (hs : Run env { graph := g } s)
    (h : SessionM.resolve id nullable hint env s = (.ok e, t)) : e.Regular := by
  rw [SessionM.resolve, bind_ok graph_apply] at h
  exact resolveWithin_regular hs h

lemma resolve_orNull {hint : Option String} (hs : Run env { graph := g } s)
    (h : SessionM.resolve id false hint env s = (.ok e, t)) (nullable : Bool) :
    SessionM.resolve id nullable hint env s =
      (.ok (e.orNull nullable env.typescript.nullKeyword), t) := by
  have hregular := resolve_regular hs h
  obtain ⟨depth, _, heq⟩ := resolve_eq_bare env s
  rw [heq] at h ⊢
  obtain ⟨plain, u, hbare, hspelled⟩ := bind_eq_ok h
  rw [spellNullable_false] at hspelled
  cases hspelled
  rw [bind_ok hbare, spellNullable_orNull hregular]

lemma resolve_error {hint : Option String} {f : Failure}
    (h : SessionM.resolve id false hint env s = (.error f, t)) (nullable : Bool) :
    SessionM.resolve id nullable hint env s = (.error f, t) := by
  obtain ⟨depth, _, heq⟩ := resolve_eq_bare env s
  rw [heq, bind_apply] at h ⊢
  rcases hbare : resolveBare (resolveWithin depth) id hint env s with ⟨f' | e, u⟩
  · rwa [hbare] at h
  · rw [hbare] at h
    simp only [spellNullable_false] at h
    cases h

/-- The expression of a usage is put together for the usage without null, and then null is added. -/
lemma resolve_built {nullable : Bool} {hint : Option String} (hs : Run env { graph := g } s)
    (h : SessionM.resolve id nullable hint env s = (.ok e, t)) :
    ∃ plain, SessionM.resolve id false hint env s = (.ok plain, t) ∧
      Built env SessionM.resolve s t id plain ∧
      e = plain.orNull nullable env.typescript.nullKeyword := by
  obtain ⟨depth, hdepth, heq⟩ := resolve_eq_bare env s
  rw [heq] at h
  obtain ⟨plain, u, hbare, hspelled⟩ := bind_eq_ok h
  have hresolve := resolveWithin_proper env depth
  have hrun := ((resolveBare_spells (s := s) hresolve.spells id hint).result hbare).1
  have hbuilt := built_of_bare hresolve hbare
  have hplain := hbuilt.regular hresolve (fun _ _ _ _ _ _ hu hu' => resolveWithin_regular hu hu')
    hs hrun
  rw [spellNullable_orNull hplain] at hspelled
  cases hspelled
  refine ⟨plain, ?_, hbuilt.carried (resolve_of_resolveWithin hdepth), rfl⟩
  rw [heq, bind_ok hbare]
  exact spellNullable_false plain

/-- The type expression of a usage reads back as it was built. Its text is a sentence for it and for
nothing else. It is the expression of the usage without null, to which the null keyword is added as
a member unless it stands for null already; and that one is a name, a keyword, or put together from
the expressions of the usages inside, just as they were resolved on the way. -/
theorem resolved_reads_back (d : Document) (env : Environment) (s t : Session) (id : SchemaId)
    (nullable : Bool) (hint : Option String) (e : TypeExpr) (hs : Run env { graph := d.graph } s)
    (h : SessionM.resolve id nullable hint env s = (.ok e, t)) :
    (∀ f, TypeExpr.Sentence .loose e.text.toList f ↔ f = e) ∧
      ∃ plain, SessionM.resolve id false hint env s = (.ok plain, t) ∧
        Built env SessionM.resolve s t id plain ∧
        e = plain.orNull nullable env.typescript.nullKeyword :=
  ⟨fun _ => (resolve_regular hs h).sentence_iff, resolve_built hs h⟩

end

end SessionM

namespace Document

open SessionM

/-- A list that may be null, of texts that may be null. -/
def maybeList : Document where
  graph := ⟨#[{ properties := [("p", 1)] },
    { types := [.array, .null], items := some (.each 2), isProperty := true },
    { types := [.string, .null] }]⟩

def maybeListExpr : TypeExpr := .union [.array (.union [.string, .null]), .null]

lemma maybeList_resolved :
    (∃ e, (SessionM.resolve 1 true none (.ofSettings {}) { graph := maybeList.graph }).1 = .ok e ∧
      e = maybeListExpr) ∧ maybeListExpr.text = "(string | null)[] | null" := by
  decide +kernel

theorem maybeList_reads_back :
    ∃ s t, Run (.ofSettings {}) { graph := maybeList.graph } s ∧
      SessionM.resolve 1 true none (.ofSettings {}) s = (.ok maybeListExpr, t) ∧
      (∀ f, TypeExpr.Sentence .loose "(string | null)[] | null".toList f ↔ f = maybeListExpr) ∧
      ∃ plain, SessionM.resolve 1 false none (.ofSettings {}) s = (.ok plain, t) ∧
        Built (.ofSettings {}) SessionM.resolve s t 1 plain ∧
        maybeListExpr = plain.orNull true .null := by
  obtain ⟨⟨e, hresolved, rfl⟩, htext⟩ := maybeList_resolved
  have hresolve : SessionM.resolve 1 true none (.ofSettings {}) { graph := maybeList.graph } =
      (.ok maybeListExpr, _) := Prod.ext hresolved rfl
  have hback := resolved_reads_back maybeList (.ofSettings {}) _ _ 1 true none _ .refl hresolve
  rw [htext] at hback
  exact ⟨_, _, .refl, hresolve, hback⟩

/-- A property that may have any value. -/
def openText : String := "\x7b\"properties\":\x7b\"p\":\x7b\x7d\x7d\x7d"

lemma open_resolved :
    ∃ d, ofJson openText = .ok d ∧
      ∃ e, (SessionM.resolve 1 true none (.ofSettings {}) { graph := d.graph }).1 = .ok e ∧
        e = .any := by
  decide +kernel

/-- Null is no further member of an expression that stands for any value. -/
theorem open_not_joined :
    ∃ d, ofJson openText = .ok d ∧
      ¬∀ e t, SessionM.resolve 1 true none (.ofSettings {}) { graph := d.graph } = (.ok e, t) →
        ∃ plain, SessionM.resolve 1 false none (.ofSettings {}) { graph := d.graph } =
            (.ok plain, t) ∧
          e = .union (plain.unionMembers ++ [.null]) := by
  obtain ⟨d, hload, e, hresolved, rfl⟩ := open_resolved
  refine ⟨d, hload, fun hall => ?_⟩
  obtain ⟨plain, _, heq⟩ := hall .any _ (Prod.ext hresolved rfl)
  cases heq

end Document

end SchemaTypes
