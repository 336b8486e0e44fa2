import SchemaTypes.Proofs.TypeScript.DictionaryValues
import SchemaTypes.Proofs.TypeScript.InlineUnions

/-! The value type of a dictionary covers its values. It is that of the schema for additional
properties if there is one, whatever the patterns say; else it is that of each pattern, or any. -/

namespace SchemaTypes

open Session SessionM

namespace TypeExpr

lemma eq_of_single? {es : List TypeExpr} {e e' : TypeExpr} (h : single? es = some e)
    (he' : e' ∈ es) : e' = e := by
  rcases es with _ | ⟨first, _ | _⟩
  · cases h
  · cases h
    exact List.mem_singleton.mp he'
  · cases h

end TypeExpr

namespace SessionM

variable {env : Environment} {s t : Session} {id : SchemaId} {e : TypeExpr}

/-- On the way to the second session the usage of the schema inside another one has this
expression, and it has it still there if nothing happened to the schemas that are used. -/
structure UsedAs (env : Environment) (s t : Session) (id : SchemaId) (e : TypeExpr) : Prop where
  answered : AnsweredInPlace env s t (resolveMember SessionM.resolve id) e
  again : (∀ other, Relation.ReflTransGen s.graph.Uses id other → s.Steady t other) →
    resolveMember SessionM.resolve id env t = (.ok e, t)

lemma resolveMember_apply (resolver : Resolver) (id : SchemaId) :
    resolveMember resolver id env s =
      resolver id (s.graph.isActualNullable env.resolver.dialect id) none env s := by
  rw [resolveMember, bind_ok graph_apply, bind_ok dialect_apply]

end SessionM

namespace Document

variable {text : String} {d : Document} {env : Environment} {s t : Session} {id : SchemaId}
  (hload : ofJson text = .ok d ∨ ofYaml text = .ok d) (hrun : Run env { graph := d.graph } s)

include hload hrun

/-- Whether null is admitted behind the references never changes: where they do not end, there is a
reference again, and it admits none. -/
lemma isActualNullable_later (hlater : Run env s t) (dialect : Dialect) (id : SchemaId) :
    t.graph.isActualNullable dialect id = s.graph.isActualNullable dialect id := by
  unfold Graph.isActualNullable
  by_cases hend : (s.graph.node (s.graph.actual id)).reference = none
  · obtain ⟨root, hrepresents⟩ := represents_of_load hload
    obtain ⟨rank, hrank⟩ := hrepresents.exists_ranked
    rw [hlater.grows.actual_of_ended hend]
    exact Graph.isNullable_expands hlater.grows hlater.expands
      (hrank.grows hrun.grows hrun.size_le) hlater.size_le dialect _
  · have hend' : (t.graph.node (t.graph.actual id)).reference ≠ none := by
      intro hnone
      have hactual := hlater.grows.actual_of_end hnone
      rw [(hlater.grows _).reference, ← hactual] at hnone
      exact hend hnone
    rw [isNullable_of_reference hload (hrun.trans hlater) (Option.isSome_iff_ne_none.mpr hend'),
      isNullable_of_reference hload hrun (Option.isSome_iff_ne_none.mpr hend)]

lemma usedAs (hid : id < s.graph.size) (hexpanding : t.expanding = s.expanding) {e : TypeExpr}
    (h : AnsweredInPlace env s t
      (SessionM.resolve id (s.graph.isActualNullable env.resolver.dialect id) none) e) :
    UsedAs env s t id e := by
  have hmember {u : Session} (hu : Run env s u) : resolveMember SessionM.resolve id env u =
      SessionM.resolve id (s.graph.isActualNullable env.resolver.dialect id) none env u := by
    rw [resolveMember_apply, isActualNullable_later hload hrun hu]
  constructor
  case answered =>
    obtain ⟨u, v, hu, hplace, he, hv⟩ := h
    exact ⟨u, v, hu, hplace, (hmember hu).trans he, hv⟩
  case again =>
    intro hsteady
    obtain ⟨u, v, hu, hplace, he, hv⟩ := h
    have hlater : Run env s t := (hu.trans ((resolve_spells _ _ _).result he).1).trans hv
    rw [hmember hlater]
    exact answered_again hload hrun hid hexpanding ⟨u, v, hu, hplace, he, hv⟩ hsteady none

/-- Whether a pattern admits null is looked up in front of a reference. -/
lemma isNullable_of_usage (h : s.graph.isReference id →
      s.graph.isActualNullable env.resolver.dialect id = false) :
    s.graph.isNullable env.resolver.dialect id =
      s.graph.isActualNullable env.resolver.dialect id := by
  cases href : s.graph.isReference id with
  | true => rw [h href, isNullable_of_reference hload hrun href]
  | false =>
    have hnone : (s.graph.node id).reference = none := by
      simpa [Graph.isReference] using href
    rw [Graph.isActualNullable, Graph.actual_of_reference hnone]

omit hload hrun in
lemma dictionaryValue_expanding {value : Option TypeExpr}
    (h : dictionaryValue SessionM.resolve id env s = (.ok value, t)) :
    t.expanding = s.expanding := by
  have hrestores : Restores env s (dictionaryValue SessionM.resolve id) :=
    asks_restores resolve_restores (.dictionaryValue id)
  rw [Restores, h] at hrestores
  exact congrArg Prod.snd hrestores

omit hload hrun in
lemma pattern_answered {value : TypeExpr} (hadditional : (s.graph.node id).additional = none)
    (hclosed : (s.graph.node id).closed) (hpatterns : (s.graph.node id).patterns ≠ [])
    (h : dictionaryValue SessionM.resolve id env s = (.ok (some value), t))
    {pattern : String × SchemaId} (hpattern : pattern ∈ (s.graph.node id).patterns) :
    AnsweredInPlace env s t (SessionM.resolve pattern.2
      (s.graph.isNullable env.resolver.dialect pattern.2) none) value := by
  rw [dictionaryValue_patterns hadditional hclosed hpatterns] at h
  obtain ⟨es, u, hes, hpure⟩ := bind_eq_ok h
  obtain ⟨hsingle, rfl⟩ := Prod.mk.inj hpure
  have hleads (pattern : String × SchemaId) := (resolve_proper env).leads pattern.2
    (s.graph.isNullable env.resolver.dialect pattern.2) none
  obtain ⟨_, results, hresults, rfl⟩ := askDistinct_answered hleads hes
  rw [TypeExpr.foldl_addDistinct] at hsingle
  obtain ⟨e, he, hanswered⟩ := Except.exists_of_forall₂_left hresults hpattern
  rwa [TypeExpr.eq_of_single? (Except.ok.inj hsingle) (List.mem_eraseDups.mpr he)] at hanswered

/-- The value type of a dictionary is that of its schema for additional properties if it has one.
Else it is any, or the dictionary is closed and the value type is that of each of its patterns,
unless the pattern is a reference to what admits null. -/
theorem dictionaryValue_covers {value : Option TypeExpr}
    (h : dictionaryValue SessionM.resolve id env s = (.ok value, t)) :
    let node := s.graph.node id
    (∀ additional ∈ node.additional, UsedAs env s t additional (value.getD .any)) ∧
    (node.additional = none → value.getD .any = .any ∨
      node.closed ∧ node.patterns ≠ [] ∧ ∀ pattern ∈ node.patterns,
        (s.graph.isReference pattern.2 →
          s.graph.isActualNullable env.resolver.dialect pattern.2 = false) →
        UsedAs env s t pattern.2 (value.getD .any)) := by
  obtain ⟨root, hrepresents⟩ := represents_of_load hload
  have hwithin := (hrun.extends (.start hrepresents.closed)).closed id
  have hexpanding := dictionaryValue_expanding h
  refine ⟨fun additional hadditional => ?_, fun hadditional => ?_⟩
  · rw [dictionaryValue_additional hadditional] at h
    obtain ⟨e, u, he, hpure⟩ := bind_eq_ok h
    cases hpure
    rw [resolveMember_apply] at he
    exact usedAs hload hrun (hwithin.additional _ hadditional) hexpanding
      ⟨s, t, .refl, rfl, he, .refl⟩
  · cases value with
    | none => exact .inl rfl
    | some value =>
      cases hclosed : (s.graph.node id).closed && !(s.graph.node id).patterns.isEmpty with
      | false =>
        rw [dictionaryValue_open hadditional hclosed] at h
        cases h
      | true =>
        rw [Bool.and_eq_true] at hclosed
        have hpatterns : (s.graph.node id).patterns ≠ [] := by simpa using hclosed.2
        refine .inr ⟨hclosed.1, hpatterns, fun pattern hpattern hnull => ?_⟩
        have hanswered := pattern_answered hadditional hclosed.1 hpatterns h hpattern
        rw [isNullable_of_usage hload hrun hnull] at hanswered
        exact usedAs hload hrun (hwithin.patterns _ hpattern) hexpanding hanswered

omit hload hrun

/-- A closed dictionary of texts, at one pattern in place and at the other one by reference. -/
def textsText : String :=
  "\x7b\"definitions\":\x7b\"T\":\x7b\"type\":\"string\"\x7d\x7d,\"properties\":\x7b" ++
    "\"p\":\x7b\"type\":\"object\",\"additionalProperties\":false,\"patternProperties\":\x7b" ++
    "\"x\":\x7b\"type\":\"string\"\x7d," ++
    "\"y\":\x7b\"$ref\":\"#/definitions/T\"\x7d\x7d\x7d\x7d\x7d"

lemma texts_spelled :
    ∃ d, ofJson textsText = .ok d ∧ (d.graph.node 4).additional = none ∧
      (d.graph.node 4).patterns = [("x", 2), ("y", 3)] ∧
      (∀ pattern ∈ [2, 3], d.graph.isActualNullable .jsonSchema pattern = false) ∧
      ∃ value, (dictionaryValue SessionM.resolve 4 (.ofSettings {}) { graph := d.graph }).1 =
        .ok value ∧ value = some .string := by
  decide +kernel

theorem texts_covered :
    ∃ d t, ofJson textsText = .ok d ∧
      let s : Session := { graph := d.graph }
      Run (.ofSettings {}) s s ∧
      dictionaryValue SessionM.resolve 4 (.ofSettings {}) s = (.ok (some .string), t) ∧
      UsedAs (.ofSettings {}) s t 2 .string ∧ UsedAs (.ofSettings {}) s t 3 .string := by
  obtain ⟨d, hload, hadditional, hpatterns, hnull, _, hvalue, rfl⟩ := texts_spelled
  refine ⟨d, _, hload, .refl, Prod.ext hvalue rfl, ?_⟩
  obtain ⟨_, hcovers⟩ := dictionaryValue_covers (.inl hload) .refl (Prod.ext hvalue rfl)
  rcases hcovers hadditional with hany | ⟨_, _, hcovers⟩
  · exact absurd hany (by decide)
  · rw [hpatterns] at hcovers
    exact ⟨hcovers ("x", 2) (by simp) fun _ => hnull 2 (by simp),
      hcovers ("y", 3) (by simp) fun _ => hnull 3 (by simp)⟩

/-- A dictionary with numbers at a pattern and texts everywhere else. -/
def numbersAmongTextsText : String :=
  "\x7b\"properties\":\x7b\"p\":\x7b\"type\":\"object\",\"additionalProperties\":\x7b" ++
    "\"type\":\"string\"\x7d," ++
    "\"patternProperties\":\x7b\"x\":\x7b\"type\":\"number\"\x7d\x7d\x7d\x7d\x7d"

/-- The numbers are not covered. -/
theorem numbers_not_covered :
    ∃ d, ofJson numbersAmongTextsText = .ok d ∧ (d.graph.node 3).isDictionary ∧
      ("x", 1) ∈ (d.graph.node 3).patterns ∧
      let s : Session := { graph := d.graph }
      let result := dictionaryValue SessionM.resolve 3 (.ofSettings {}) s
      let usage := resolveMember SessionM.resolve 1 (.ofSettings {})
      (∃ value, result.1 = .ok value ∧ value = some .string) ∧
      (∃ e, (usage s).1 = .ok e ∧ e = .number) ∧ ∃ e, (usage result.2).1 = .ok e ∧ e = .number := by
  decide +kernel

end Document

end SchemaTypes
