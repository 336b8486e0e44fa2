import SchemaTypes.Proofs.Graph.Chains
import SchemaTypes.Proofs.TypeScript.Building

/-! The values of dictionaries. They are described by one schema for all of them, or by schemas for
patterns of keys; where all of these are references to one definition, both ways ask for the same
usage, but whether that admits null is looked up behind the reference in the first way only. -/

namespace SchemaTypes

open Session

/-- Two schemas for dictionaries. All values of the first one have the schema behind a reference,
and so have the values at the patterns of the second one, which has no others. -/
structure Graph.DescribeAlike (g : Graph) (a b usage value : SchemaId) : Prop where
  additional : (g.node a).additional = some usage
  target : (g.node usage).reference = some value
  noAdditional : (g.node b).additional = none
  closed : (g.node b).closed
  patterns_ne_nil : (g.node b).patterns ≠ []
  patterns : ∀ pattern ∈ (g.node b).patterns, (g.node pattern.2).reference = some value

instance (g : Graph) (a b usage value : SchemaId) : Decidable (g.DescribeAlike a b usage value) :=
  decidable_of_iff
    ((g.node a).additional = some usage ∧ (g.node usage).reference = some value ∧
      (g.node b).additional = none ∧ (g.node b).closed ∧ (g.node b).patterns ≠ [] ∧
      ∀ pattern ∈ (g.node b).patterns, (g.node pattern.2).reference = some value)
    ⟨fun ⟨h₁, h₂, h₃, h₄, h₅, h₆⟩ => ⟨h₁, h₂, h₃, h₄, h₅, h₆⟩,
      fun ⟨h₁, h₂, h₃, h₄, h₅, h₆⟩ => ⟨h₁, h₂, h₃, h₄, h₅, h₆⟩⟩

namespace SessionM

variable {env : Environment} {s : Session} {first second target : SchemaId}

lemma askDistinct_same {β : Type} {ask : β → SessionM TypeExpr} {bs : List β} {e : TypeExpr}
    (h : ∀ b ∈ bs, ask b env s = (.ok e, s)) : askDistinct ask [e] bs env s = (.ok [e], s) := by
  induction bs with
  | nil => rfl
  | cons b rest ih =>
    obtain ⟨hb, hrest⟩ := List.forall_mem_cons.mp h
    have hsame : TypeExpr.addDistinct [e] e = [e] := by simp [TypeExpr.addDistinct]
    rw [askDistinct, bind_ok hb, hsame]
    exact ih hrest

section

variable (hfirst : (s.graph.node first).reference = some target)
  (hsecond : (s.graph.node second).reference = some target)
  (honeFirst : (s.graph.node first).oneOf = []) (honeSecond : (s.graph.node second).oneOf = [])

include hfirst hsecond honeFirst honeSecond

lemma resolveBare_twins (resolver : Resolver) (hint : Option String) :
    resolveBare resolver first hint env s = resolveBare resolver second hint env s := by
  have hactual := Graph.Refers.actual_eq hfirst hsecond
  have hbare := Graph.removeNullability_of_oneOf honeFirst
  have hbare' := Graph.removeNullability_of_oneOf honeSecond
  have hcarrier : s.graph.carrier first = s.graph.carrier second := by
    rw [Graph.carrier, Graph.carrier, hbare, hbare', hactual]
  have hreference : s.graph.isReference first = true := by rw [Graph.isReference, hfirst]; rfl
  have hreference' : s.graph.isReference second = true := by rw [Graph.isReference, hsecond]; rfl
  cases hdef : s.graph.isDefinitionType env.resolver.inlineNamedAny (s.graph.actual second) with
  | true =>
    have hdef' := hactual ▸ hdef
    cases hwrapper : s.wrapper? (s.graph.actual second) with
    | some wrapper =>
      rw [resolveBare_wrapped honeFirst hdef' (hactual ▸ hwrapper),
        resolveBare_wrapped honeSecond hdef hwrapper]
    | none =>
      rw [resolveBare_reference honeFirst hreference hdef' (hactual ▸ hwrapper),
        resolveBare_reference honeSecond hreference' hdef hwrapper, bind_apply, bind_apply,
        typeName_congr hcarrier]
  | false =>
    have husage : s.graph.resolvable env.resolver.inlineNamedAny first =
        s.graph.resolvable env.resolver.inlineNamedAny second := by
      simp only [Graph.resolvable, hbare, hbare', hactual, hdef, Bool.false_eq_true, if_false]
    exact resolveBare_congr husage hcarrier resolver hint

lemma resolve_twins (nullable : Bool) (hint : Option String) :
    SessionM.resolve first nullable hint env s = SessionM.resolve second nullable hint env s := by
  obtain ⟨depth, _, heq⟩ := resolve_eq_bare env s
  rw [heq, heq, bind_apply, bind_apply,
    resolveBare_twins hfirst hsecond honeFirst honeSecond]

end

end SessionM

namespace TypeExpr

variable {e : TypeExpr}

/-- Nothing else comes to a list of different expressions exactly if all of them are the same. -/
lemma single?_foldl_addDistinct (e : TypeExpr) (results : List TypeExpr) :
    single? (results.foldl addDistinct [e]) = if ∀ e' ∈ results, e' = e then some e else none := by
  have heq : results.foldl addDistinct [e] = (e :: results).eraseDups :=
    foldl_addDistinct (e :: results)
  rw [heq, List.eraseDups_cons]
  split
  · rename_i hsame
    have hnone : (results.filter fun e' => !e' == e) = [] := by
      rw [List.filter_eq_nil_iff]
      exact fun e' he' => by simp [hsame e' he']
    rw [hnone]
    rfl
  · rename_i hother
    push Not at hother
    obtain ⟨e', hmem, hne⟩ := hother
    have hmem' : e' ∈ (results.filter fun e' => !e' == e).eraseDups :=
      List.mem_eraseDups.mpr (List.mem_filter.mpr ⟨hmem, by simpa using hne⟩)
    obtain ⟨other, rest, hrest⟩ := List.exists_cons_of_ne_nil (List.ne_nil_of_mem hmem')
    rw [hrest]
    rfl

lemma orNull_eq_self {nullable : Bool} {keyword : NullKeyword} :
    e.orNull nullable keyword = e ↔ (nullable = true → e = .any ∨ e = .nullKeyword keyword) := by
  have hne : TypeExpr.union (e.unionMembers ++ [.nullKeyword keyword]) ≠ e := by
    intro heq
    cases e with
    | union members => simp [unionMembers] at heq
    | ident | array | tuple | dictionary => cases heq
  rw [orNull]
  cases nullable <;> cases hany : e == .any <;>
    cases hnull : e == .nullKeyword keyword <;> simp_all

end TypeExpr

namespace Document

open SessionM

variable {text : String} {d : Document} {env : Environment} {s : Session}
  (hload : ofJson text = .ok d ∨ ofYaml text = .ok d) (hrun : Run env { graph := d.graph } s)

include hload hrun

lemma oneOf_of_later_reference {id : SchemaId} (href : (s.graph.node id).reference.isSome) :
    (s.graph.node id).oneOf = [] := by
  rw [(hrun.grows id).reference] at href
  rw [(hrun.grows id).oneOf]
  exact oneOf_of_reference hload id href

/-- A reference itself admits no null, whatever stands behind it. -/
lemma isNullable_of_reference {id : SchemaId} (href : (s.graph.node id).reference.isSome)
    (dialect : Dialect) : s.graph.isNullable dialect id = false := by
  obtain ⟨root, hrepresents⟩ := represents_of_load hload
  obtain ⟨rank, hrank⟩ := hrepresents.exists_ranked
  rw [(hrun.grows id).reference] at href
  obtain ⟨target, isProperty, hnode⟩ := hrepresents.reference_plain href
  rw [Graph.isNullable_expands hrun.grows hrun.expands hrank hrun.size_le, Graph.isNullable]
  cases hsize : d.graph.size with
  | zero => rfl
  | succ depth =>
    rw [Graph.isNullableWithin, hnode]
    cases dialect <;> rfl

section

variable {a b r v : SchemaId} (h : s.graph.DescribeAlike a b r v)

include h

/-- Each pattern asks for the same usage, as one that does not admit null. -/
lemma ask_pattern {pattern : String × SchemaId} (hpattern : pattern ∈ (s.graph.node b).patterns)
    {t : Session} (hlater : Run env s t) :
    SessionM.resolve pattern.2 (s.graph.isNullable env.resolver.dialect pattern.2) none env t =
      SessionM.resolve r false none env t := by
  have hreference := h.patterns pattern hpattern
  have hr : (t.graph.node r).reference = some v := by rw [(hlater.grows r).reference, h.target]
  have hpattern' : (t.graph.node pattern.2).reference = some v := by
    rw [(hlater.grows pattern.2).reference, hreference]
  have hrun' := hrun.trans hlater
  rw [isNullable_of_reference hload hrun (by rw [hreference]; rfl)]
  exact resolve_twins hpattern' hr (oneOf_of_later_reference hload hrun' (by rw [hpattern']; rfl))
    (oneOf_of_later_reference hload hrun' (by rw [hr]; rfl)) false none

lemma dictionaryValues_failed {f : Failure} {t : Session}
    (hf : SessionM.resolve r false none env s = (.error f, t)) :
    dictionaryValue SessionM.resolve a env s = (.error f, t) ∧
      dictionaryValue SessionM.resolve b env s = (.error f, t) := by
  constructor
  · have hmember : resolveMember SessionM.resolve r env s = (.error f, t) := by
      rw [resolveMember, bind_ok graph_apply, bind_ok dialect_apply]
      exact resolve_error hf _
    rw [dictionaryValue_additional h.additional, bind_apply, hmember]
  · rw [dictionaryValue_patterns h.noAdditional h.closed h.patterns_ne_nil]
    obtain ⟨pattern, rest, hlist⟩ := List.exists_cons_of_ne_nil h.patterns_ne_nil
    have hask := ask_pattern hload hrun h (hlist ▸ List.mem_cons_self) .refl
    rw [hlist, bind_apply, askDistinct, bind_apply, hask, hf]

omit hload in
lemma additional_answered {e : TypeExpr} {t : Session}
    (he : SessionM.resolve r false none env s = (.ok e, t)) :
    dictionaryValue SessionM.resolve a env s = (.ok (some (e.orNull
      (s.graph.isActualNullable env.resolver.dialect r) env.typescript.nullKeyword)), t) := by
  have hmember : resolveMember SessionM.resolve r env s = (.ok (e.orNull
      (s.graph.isActualNullable env.resolver.dialect r) env.typescript.nullKeyword), t) := by
    rw [resolveMember, bind_ok graph_apply, bind_ok dialect_apply]
    exact resolve_orNull hrun he _
  rw [dictionaryValue_additional h.additional, bind_ok hmember, pure_apply]

/-- The first of the patterns gives the expression, and the others either the same one or some other
one, so that there is none for all. -/
lemma patterns_answered {e : TypeExpr} {value : Option TypeExpr} {t u : Session}
    (he : SessionM.resolve r false none env s = (.ok e, t))
    (hvalue : dictionaryValue SessionM.resolve b env s = (.ok value, u)) :
    ∃ results : List TypeExpr, results.length + 1 = (s.graph.node b).patterns.length ∧
      (∀ e' ∈ results, Answered env t u (SessionM.resolve r false none) e') ∧
      value = if ∀ e' ∈ results, e' = e then some e else none := by
  rw [dictionaryValue_patterns h.noAdditional h.closed h.patterns_ne_nil] at hvalue
  obtain ⟨pattern, rest, hlist⟩ := List.exists_cons_of_ne_nil h.patterns_ne_nil
  have hask := ask_pattern hload hrun h (hlist ▸ List.mem_cons_self) .refl
  obtain ⟨es, w, hes, hpure⟩ := bind_eq_ok hvalue
  cases hpure
  rw [hlist, askDistinct, bind_ok (hask.trans he)] at hes
  have hleads (pattern : String × SchemaId) := (resolve_proper env).leads pattern.2
    (s.graph.isNullable env.resolver.dialect pattern.2) none
  obtain ⟨_, results, hresults, rfl⟩ := askDistinct_answered hleads hes
  have hfirst : Run env s t := ((resolve_spells r false none).result he).1
  refine ⟨results, ?_, fun e' he' => ?_, TypeExpr.single?_foldl_addDistinct e results⟩
  · rw [hlist, List.length_cons, hresults.length_eq]
  · obtain ⟨other, hother, x, y, hx, _, hxy, hy⟩ := Except.exists_of_forall₂_right hresults he'
    have hmem : other ∈ (s.graph.node b).patterns := hlist ▸ List.mem_cons_of_mem _ hother
    rw [ask_pattern hload hrun h hmem (hfirst.trans hx)] at hxy
    exact ⟨x, y, hx, hxy, hy⟩

lemma patterns_again {e : TypeExpr} {t : Session}
    (he : SessionM.resolve r false none env s = (.ok e, t))
    (hsteady : (s.graph.node b).patterns.length = 1 ∨
      ∀ other, Relation.ReflTransGen s.graph.Uses r other → s.Steady t other) :
    dictionaryValue SessionM.resolve b env s = (.ok (some e), t) := by
  rw [dictionaryValue_patterns h.noAdditional h.closed h.patterns_ne_nil]
  obtain ⟨pattern, rest, hlist⟩ := List.exists_cons_of_ne_nil h.patterns_ne_nil
  have hask := ask_pattern hload hrun h (hlist ▸ List.mem_cons_self) .refl
  have hfirst : Run env s t := ((resolve_spells r false none).result he).1
  have hagain : ∀ other ∈ rest, SessionM.resolve other.2
      (s.graph.isNullable env.resolver.dialect other.2) none env t = (.ok e, t) := by
    intro other hother
    have hmem : other ∈ (s.graph.node b).patterns := hlist ▸ List.mem_cons_of_mem _ hother
    rw [ask_pattern hload hrun h hmem hfirst]
    rcases hsteady with hone | hsteady
    · rw [hlist, List.length_cons, Nat.add_eq_right, List.length_eq_zero_iff] at hone
      rw [hone] at hother
      cases hother
    · have hexpanding := (((resolve_proper env).leads r false none s).result he).2
      have hlt : r < s.graph.size :=
        Graph.lt_size_of_ne Node.reference (Option.ne_none_iff_exists'.mpr ⟨_, h.target⟩)
      exact resolves_again hload hrun hlt he .refl hexpanding hsteady none
  rw [hlist, askDistinct]
  refine (bind_ok ((bind_ok (hask.trans he)).trans (askDistinct_same hagain))).trans rfl

/-- Two dictionaries with values behind references to the same schema, in the one by the schema for
additional properties, in the other one by patterns. Both fail alike, and one that does not fail has
the expression of the usage. The first one adds null to it if the schema admits null. The second one
never does, so that the two agree exactly if there is nothing to add and all the patterns have given
the same expression; and these do if there is only one, or if nothing has happened meanwhile to the
schemas that are used. -/
theorem dictionaryValues_agree_iff :
    (∀ f t, SessionM.resolve r false none env s = (.error f, t) →
      dictionaryValue SessionM.resolve a env s = (.error f, t) ∧
      dictionaryValue SessionM.resolve b env s = (.error f, t)) ∧
    ∀ e t, SessionM.resolve r false none env s = (.ok e, t) →
      let null := TypeExpr.nullKeyword env.typescript.nullKeyword
      let nullable := s.graph.isActualNullable env.resolver.dialect r
      let first := some (e.orNull nullable env.typescript.nullKeyword)
      dictionaryValue SessionM.resolve a env s = (.ok first, t) ∧
      ((s.graph.node b).patterns.length = 1 ∨
          (∀ other, Relation.ReflTransGen s.graph.Uses r other → s.Steady t other) →
        dictionaryValue SessionM.resolve b env s = (.ok (some e), t)) ∧
      ∀ second u, dictionaryValue SessionM.resolve b env s = (.ok second, u) →
        ∃ results : List TypeExpr, results.length + 1 = (s.graph.node b).patterns.length ∧
          (∀ e' ∈ results, Answered env t u (SessionM.resolve r false none) e') ∧
          (second = if ∀ e' ∈ results, e' = e then some e else none) ∧
          ((∀ fallback, second.getD fallback = first.getD fallback) ↔
            (∀ e' ∈ results, e' = e) ∧ (nullable = true → e = .any ∨ e = null)) := by
  refine ⟨fun f t hf => dictionaryValues_failed hload hrun h hf, fun e t he => ?_⟩
  refine ⟨additional_answered hrun h he, patterns_again hload hrun h he, fun second u hsecond => ?_⟩
  obtain ⟨results, hlength, hanswered, rfl⟩ := patterns_answered hload hrun h he hsecond
  refine ⟨results, hlength, hanswered, rfl, ?_⟩
  rw [← TypeExpr.orNull_eq_self]
  split
  · rename_i hsame
    rw [and_iff_right hsame]
    exact ⟨fun hall => (hall .any).symm, fun heq _ => heq.symm⟩
  · rename_i hother
    simp only [Option.getD_none, Option.getD_some, hother, false_and, iff_false]
    intro hall
    have hsame : TypeExpr.any = .never := (hall .any).trans (hall .never).symm
    exact absurd hsame (by decide)

end

omit hload hrun

/-- Two dictionaries of texts that may be null, in both of the ways. -/
def maybeTextsText : String :=
  "\x7b\"definitions\":\x7b\"V\":\x7b\"type\":[\"string\",\"null\"]\x7d\x7d," ++
    "\"properties\":\x7b\"a\":\x7b\"type\":\"object\"," ++
    "\"additionalProperties\":\x7b\"$ref\":\"#/definitions/V\"\x7d\x7d," ++
    "\"b\":\x7b\"type\":\"object\",\"additionalProperties\":false,\"patternProperties\":\x7b" ++
    "\"x\":\x7b\"$ref\":\"#/definitions/V\"\x7d,\"y\":\x7b\"$ref\":\"#/definitions/V\"\x7d" ++
    "\x7d\x7d\x7d\x7d"

lemma maybeTexts_spelled :
    ∃ d, ofJson maybeTextsText = .ok d ∧ d.graph.DescribeAlike 3 6 2 1 ∧
      (∃ first, (dictionaryValue SessionM.resolve 3 (.ofSettings {}) { graph := d.graph }).1 =
        .ok first ∧ first = some (.union [.string, .null])) ∧
      ∃ second, (dictionaryValue SessionM.resolve 6 (.ofSettings {}) { graph := d.graph }).1 =
        .ok second ∧ second = some .string := by
  decide +kernel

theorem maybeTexts_agree_iff :
    ∃ d, ofJson maybeTextsText = .ok d ∧
      let env := Environment.ofSettings {}
      let s : Session := { graph := d.graph }
      s.graph.DescribeAlike 3 6 2 1 ∧
      (∀ f t, SessionM.resolve 2 false none env s = (.error f, t) →
        dictionaryValue SessionM.resolve 3 env s = (.error f, t) ∧
        dictionaryValue SessionM.resolve 6 env s = (.error f, t)) ∧
      ∀ e t, SessionM.resolve 2 false none env s = (.ok e, t) →
        let null := TypeExpr.nullKeyword env.typescript.nullKeyword
        let nullable := s.graph.isActualNullable env.resolver.dialect 2
        let first := some (e.orNull nullable env.typescript.nullKeyword)
        dictionaryValue SessionM.resolve 3 env s = (.ok first, t) ∧
        ((s.graph.node 6).patterns.length = 1 ∨
            (∀ other, Relation.ReflTransGen s.graph.Uses 2 other → s.Steady t other) →
          dictionaryValue SessionM.resolve 6 env s = (.ok (some e), t)) ∧
        ∀ second u, dictionaryValue SessionM.resolve 6 env s = (.ok second, u) →
          ∃ results : List TypeExpr, results.length + 1 = (s.graph.node 6).patterns.length ∧
            (∀ e' ∈ results, Answered env t u (SessionM.resolve 2 false none) e') ∧
            (second = if ∀ e' ∈ results, e' = e then some e else none) ∧
            ((∀ fallback, second.getD fallback = first.getD fallback) ↔
              (∀ e' ∈ results, e' = e) ∧ (nullable = true → e = .any ∨ e = null)) := by
  obtain ⟨d, hload, halike, _⟩ := maybeTexts_spelled
  exact ⟨d, hload, halike, dictionaryValues_agree_iff (.inl hload) .refl halike⟩

/-- The values at the patterns have lost their null. -/
theorem maybeTexts_differ :
    ∃ d first second t u, ofJson maybeTextsText = .ok d ∧ d.graph.DescribeAlike 3 6 2 1 ∧
      dictionaryValue SessionM.resolve 3 (.ofSettings {}) { graph := d.graph } = (.ok first, t) ∧
      dictionaryValue SessionM.resolve 6 (.ofSettings {}) { graph := d.graph } = (.ok second, u) ∧
      ∀ fallback, first.getD fallback ≠ second.getD fallback := by
  obtain ⟨d, hload, halike, ⟨_, hfirst, rfl⟩, _, hsecond, rfl⟩ := maybeTexts_spelled
  exact ⟨d, _, _, _, _, hload, halike, Prod.ext hfirst rfl, Prod.ext hsecond rfl,
    fun _ => by simp only [Option.getD_some]; decide⟩

end Document

end SchemaTypes
