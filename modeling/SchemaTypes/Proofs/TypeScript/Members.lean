import SchemaTypes.Proofs.TypeScript.InlineUnions
import Mathlib.Data.List.Pairwise

/-! Members that a union has twice. What two alternatives have in common is taken once only if it is
all that they have, and null is added without a look at the members that are there. -/

namespace SchemaTypes

open Session SessionM

namespace TypeExpr

variable {e : TypeExpr} {es : List TypeExpr}

lemma nodup_eraseDups (es : List TypeExpr) : es.eraseDups.Nodup := by
  induction es using List.reverseRecOn with
  | nil => exact List.nodup_nil
  | append_singleton es e ih =>
    rw [List.eraseDups_append]
    by_cases hmem : e ∈ es
    · simpa [List.removeAll, hmem] using ih
    · have hnew : e ∉ es.eraseDups := by rwa [List.mem_eraseDups]
      have hlast : [e].removeAll es = [e] := by simp [List.removeAll, hmem]
      rw [hlast]
      exact ih.append (List.nodup_singleton e) (List.disjoint_singleton.mpr hnew)

lemma nodup_flatMap_unionMembers (results : List TypeExpr) :
    (results.eraseDups.flatMap unionMembers).Nodup ↔
      (∀ own ∈ results, own.unionMembers.Nodup) ∧
        ∀ own ∈ results, ∀ other ∈ results, own ≠ other →
          own.unionMembers.Disjoint other.unionMembers := by
  have hsymm : Std.Symm (Function.onFun List.Disjoint unionMembers) := ⟨fun _ _ h => h.symm⟩
  rw [List.nodup_flatMap]
  simp only [List.mem_eraseDups]
  refine and_congr_right fun _ => ⟨fun h own hown other hother hne => ?_, fun h => ?_⟩
  · exact h.forall (List.mem_eraseDups.mpr hown) (List.mem_eraseDups.mpr hother) hne
  · refine (nodup_eraseDups results).pairwise_of_forall_ne fun own hown other hother hne => ?_
    exact h own (List.mem_eraseDups.mp hown) other (List.mem_eraseDups.mp hother) hne

lemma nodup_orNull (nullable : Bool) (keyword : NullKeyword) :
    (e.orNull nullable keyword).unionMembers.Nodup ↔ e.unionMembers.Nodup ∧
      (nullable → e = .nullKeyword keyword ∨ .nullKeyword keyword ∉ e.unionMembers) := by
  rw [orNull]
  split
  case isTrue h =>
    obtain ⟨⟨hnullable, _⟩, hne⟩ : (nullable = true ∧ e ≠ .any) ∧ e ≠ .nullKeyword keyword := by
      simpa using h
    rw [unionMembers, List.nodup_append_comm, List.singleton_append, List.nodup_cons, and_comm]
    simp [hnullable, hne]
  case isFalse h =>
    refine (and_iff_left fun hnullable => or_iff_not_imp_left.mpr fun hne => ?_).symm
    obtain rfl : e = .any := by simpa [hnullable, hne] using h
    cases keyword <;> decide

lemma Regular.text_inj {f : TypeExpr} (he : e.Regular) (hf : f.Regular) (h : e.text = f.text) :
    e = f := by
  refine hf.sentence_iff.mp ?_
  rw [← h]
  exact he.sentence_iff.mpr rfl

lemma Regular.nodup_texts (h : e.Regular) :
    (e.unionMembers.map text).Nodup ↔ e.unionMembers.Nodup := by
  refine ⟨List.Nodup.of_map text, fun hnodup => hnodup.map_on fun a ha b hb heq => ?_⟩
  exact (h.members.2 a ha).1.text_inj (h.members.2 b hb).1 heq

end TypeExpr

/-- The alternatives that are spelled out for a schema without a type. -/
def Node.choices (node : Node) : List (Option SchemaId) :=
  if node.oneOf = [] then node.anyOf.map some else node.oneOf

namespace SessionM

/-- The members of the expression are those of the alternatives, which were resolved in place one
after another. -/
structure Spread (env : Environment) (s t : Session) (id : SchemaId) (results : List TypeExpr)
    (plain : TypeExpr) : Prop where
  answers : List.Forall₂ (fun alternative => AnsweredInPlace env s t
    (askAlternative SessionM.resolve alternative)) (s.spelledNode env id).choices results
  members : plain.unionMembers = results.eraseDups.flatMap TypeExpr.unionMembers

variable {env : Environment} {g : Graph} {s t : Session} {id : SchemaId} {plain : TypeExpr}

lemma Built.spread (hs : Run env { graph := g } s)
    (h : Built env SessionM.resolve s t id plain) :
    plain.unionMembers = [plain] ∨ ∃ results, Spread env s t id results plain := by
  cases h with
  | wrapper | named | again | anything => exact .inl rfl
  | container _ he => cases he <;> exact .inl rfl
  | keyword =>
    obtain ⟨name, _, heq⟩ := (s.spelledNode env id).keyword_eq_ident
    rw [heq]
    exact .inl rfl
  | union _ _ halternatives hresults =>
    subst halternatives
    exact .inr ⟨_, hresults, TypeExpr.unionMembers_join (results_flat hs hresults)⟩

/-- The members of a usage's expression are distinct, and so are their texts, exactly if null is not
added to a union that has it and, where the union is spelled out, no alternative has a member twice
or shares one with an alternative that is spelled otherwise. -/
theorem members_distinct_iff (d : Document) (env : Environment) (s t : Session) (id : SchemaId)
    (nullable : Bool) (hint : Option String) (e : TypeExpr) (hs : Run env { graph := d.graph } s)
    (h : SessionM.resolve id nullable hint env s = (.ok e, t)) :
    ∃ plain, SessionM.resolve id false hint env s = (.ok plain, t) ∧
      ((e.unionMembers.map TypeExpr.text).Nodup ↔ e.unionMembers.Nodup) ∧
      (e.unionMembers.Nodup ↔ plain.unionMembers.Nodup ∧
        (nullable → plain = .nullKeyword env.typescript.nullKeyword ∨
          .nullKeyword env.typescript.nullKeyword ∉ plain.unionMembers)) ∧
      (plain.unionMembers = [plain] ∨ ∃ results, Spread env s t id results plain ∧
        (plain.unionMembers.Nodup ↔ (∀ own ∈ results, own.unionMembers.Nodup) ∧
          ∀ own ∈ results, ∀ other ∈ results, own ≠ other →
            own.unionMembers.Disjoint other.unionMembers)) := by
  have htexts := (resolve_regular hs h).nodup_texts
  obtain ⟨plain, hplain, hbuilt, rfl⟩ := resolve_built hs h
  refine ⟨plain, hplain, htexts, TypeExpr.nodup_orNull _ _, (hbuilt.spread hs).imp_right ?_⟩
  rintro ⟨results, hspread⟩
  refine ⟨results, hspread, ?_⟩
  rw [hspread.members, TypeExpr.nodup_flatMap_unionMembers]

end SessionM

namespace Document

open SessionM

/-- Texts and flags, numbers that may be null, and lists. -/
def mixedChoiceText : String :=
  "\x7b\"properties\":\x7b\"p\":\x7b\"oneOf\":[" ++
    "\x7b\"anyOf\":[\x7b\"type\":\"string\"\x7d,\x7b\"type\":\"boolean\"\x7d]\x7d," ++
    "\x7b\"type\":[\"number\",\"null\"]\x7d,\x7b\"type\":\"array\"\x7d]\x7d\x7d\x7d"

def mixedChoiceExpr : TypeExpr := .union [.string, .boolean, .number, .array .any, .null]

lemma mixedChoice_resolved :
    ∃ d, ofJson mixedChoiceText = .ok d ∧
      d.graph.isActualNullable (Environment.ofSettings {}).resolver.dialect 6 ∧
      ∃ e, (SessionM.resolve 6 true (some "p") (.ofSettings {}) { graph := d.graph }).1 = .ok e ∧
        e = mixedChoiceExpr := by
  decide +kernel

theorem mixedChoice_members :
    ∃ d t, ofJson mixedChoiceText = .ok d ∧
      let env := Environment.ofSettings {}
      let s : Session := { graph := d.graph }
      d.graph.isActualNullable env.resolver.dialect 6 ∧ Run env { graph := d.graph } s ∧
      SessionM.resolve 6 true (some "p") env s = (.ok mixedChoiceExpr, t) ∧
      (mixedChoiceExpr.unionMembers.map TypeExpr.text).Nodup ∧
      ∃ plain, SessionM.resolve 6 false (some "p") env s = (.ok plain, t) ∧
        plain.unionMembers.Nodup ∧ (plain = .null ∨ .null ∉ plain.unionMembers) := by
  obtain ⟨d, hload, hnullable, _, hresolved, rfl⟩ := mixedChoice_resolved
  have hresolve : SessionM.resolve 6 true (some "p") (.ofSettings {}) { graph := d.graph } =
      (.ok mixedChoiceExpr, _) := Prod.ext hresolved rfl
  obtain ⟨plain, hplain, htexts, hiff, _⟩ :=
    members_distinct_iff d (.ofSettings {}) _ _ 6 true (some "p") _ .refl hresolve
  have hnodup : mixedChoiceExpr.unionMembers.Nodup := by decide
  obtain ⟨hmembers, hnull⟩ := hiff.mp hnodup
  exact ⟨d, _, hload, hnullable, .refl, hresolve, htexts.mpr hnodup, plain, hplain, hmembers,
    hnull rfl⟩

/-- A text, a number or null. -/
def nullChoiceText : String :=
  "\x7b\"properties\":\x7b\"p\":\x7b\"oneOf\":[null," ++
    "\x7b\"type\":\"string\"\x7d,\x7b\"type\":\"number\"\x7d]\x7d\x7d\x7d"

theorem nullChoice_repeats :
    ∃ d, ofJson nullChoiceText = .ok d ∧ (d.graph.node 0).properties = [("p", 3)] ∧
      ∃ e, (SessionM.resolve 3
          (d.graph.isActualNullable (Environment.ofSettings {}).resolver.dialect 3) (some "p")
          (.ofSettings {}) { graph := d.graph }).1 = .ok e ∧
        e.text = "null | string | number | null" ∧ ¬ e.unionMembers.Nodup := by
  decide +kernel

end Document

end SchemaTypes
