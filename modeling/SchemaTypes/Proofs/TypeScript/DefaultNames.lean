import SchemaTypes.Load
import SchemaTypes.Proofs.Session.Preparation
import SchemaTypes.Proofs.Text.Identifiers
import SchemaTypes.Proofs.TypeScript.Refusals

/-! What the default generator gives. Its names are free, so that they never collide, and they are
identifiers if the texts are nameable that they are made of. -/

namespace SchemaTypes

deriving instance DecidableEq for Failure

open Session SessionM Naming Text

namespace Naming

variable {settings : NamingSettings} {request : NameRequest}

lemma default_ok (h : ∀ target,
      settings.mappings.lookup (requestBase request) = some target → isIdentifier target) :
    ∃ name, Naming.default settings request = .ok name := by
  cases hdefault : Naming.default settings request with
  | ok name => exact ⟨name, rfl⟩
  | error e =>
    obtain ⟨target, hmapped, hinvalid, _⟩ := default_eq_error_iff.mp hdefault
    rw [h target hmapped] at hinvalid
    cases hinvalid

end Naming

/-- The default generator fails only where the base is mapped to what is no identifier. Otherwise
it gives the first free name, with a number that is not larger than the names are many, and no call
on a session fails because a name is taken. -/
theorem default_names_least (settings : NamingSettings) (request : NameRequest) (env : Environment)
    (s : Session) :
    let base := requestBase request
    let taken := request.taken ++ settings.reserved
    let env' := { env with generator := Naming.default settings }
    (∀ e, Naming.default settings request = .error e ↔ ∃ target,
      settings.mappings.lookup base = some target ∧ isIdentifier target = false ∧
        e = .invalidMapping base target) ∧
    ((∀ target, settings.mappings.lookup base = some target → isIdentifier target) →
      ∃ name, Naming.default settings request = .ok name ∧ name ∉ request.taken ∧
        name ∉ settings.reserved ∧
        LeastFree taken ((settings.mappings.lookup base).getD base) name) ∧
    ∀ name, (∀ call : Call, (call.run env' s).1 ≠ .error (.naming (.collision name))) ∧
      ∀ d : Document, (d.emit env' s).1 ≠ .error (.naming (.collision name)) := by
  intro base taken env'
  refine ⟨fun e => default_eq_error_iff, fun hvalid => ?_, fun name => ?_⟩
  · obtain ⟨name, hname⟩ := default_ok hvalid
    have hleast := default_leastFree hname
    have hfree := hleast.not_mem
    rw [List.mem_append, not_or] at hfree
    exact ⟨name, hname, hfree.1, hfree.2, hleast⟩
  · have hnever : ¬Fails env' s (.naming (.collision name)) := by
      intro hfails
      cases hfails with
      | refused hrun unnamed hrefused =>
        cases hrefused with
        | answer h =>
          obtain ⟨_, _, _, heq⟩ := default_eq_error_iff.mp h
          cases heq
        | collision h valid htaken =>
          exact (default_leastFree h).not_mem (List.mem_append_left _ htaken)
    have hcall (call : Call) : Reports env' s call.run := call.run_reports
    have hemit (d : Document) : Reports env' s d.emit := d.emit_reports
    exact ⟨fun call h => hnever ((hcall call).2 _ h), fun d h => hnever ((hemit d).2 _ h)⟩

/-- A mapped name and a configured one are taken, and so is the first numbered one. -/
theorem pet_least_free :
    let settings : NamingSettings := { mappings := [("Pet", "Animal")], reserved := ["Animal2"] }
    let request : NameRequest := ⟨{}, 0, some "defs/Pet", ["Animal", "Pet"], 2⟩
    (∀ target, settings.mappings.lookup (requestBase request) = some target →
      isIdentifier target) ∧
    Naming.default settings request = .ok "Animal3" ∧
    LeastFree ["Animal", "Pet", "Animal2"] "Animal" "Animal3" := by
  intro settings request
  have hbase : requestBase request = "Pet" := by decide +kernel
  have hvalid : ∀ target, settings.mappings.lookup (requestBase request) = some target →
      isIdentifier target := by
    rw [hbase]
    rintro _ ⟨⟩
    decide +kernel
  have hname : Naming.default settings request = .ok "Animal3" := by
    have hsome : ∃ name, Naming.default settings request = .ok name ∧ name = "Animal3" := by
      decide +kernel
    obtain ⟨_, hname, rfl⟩ := hsome
    exact hname
  obtain ⟨_, hok, _⟩ :=
    default_names_least settings request (.ofSettings {}) { graph := request.graph }
  obtain ⟨name, hname', _, _, hleast⟩ := hok hvalid
  cases hname.symm.trans hname'
  rw [hbase] at hleast
  exact ⟨hvalid, hname, hleast⟩

namespace Naming

variable {settings : NamingSettings} {request : NameRequest} {taken : List String}
  {base name : String}

lemma LeastFree.isIdentifier_eq (h : LeastFree taken base name) (hbase : base ≠ "") :
    isIdentifier name = isIdentifier base := by
  cases h with
  | base => rfl
  | numbered _ n =>
    refine isIdentifier_append hbase fun c hc => ?_
    rw [show (toString n).toList = Nat.toDigits 10 n from Nat.toList_repr] at hc
    exact Nat.isDigit_of_mem_toDigits (by decide) (by decide) hc

/-- A text that is not nameable, where what it gives is not mapped to another name. -/
def Unnameable (settings : NamingSettings) (text : Option String) : Prop :=
  ∃ t, text = some t ∧ settings.mappings.lookup (typeIdentifier t) = none ∧ ¬Nameable t

/-- A name for a base that is mapped is an identifier, as what it is mapped to has to be one. -/
lemma isIdentifier_of_mapped {target : String} (hname : Naming.default settings request = .ok name)
    (hlookup : settings.mappings.lookup (requestBase request) = some target) :
    isIdentifier name := by
  have hvalid : isIdentifier target := by
    by_contra hnot
    cases hname.symm.trans (default_eq_error_iff.mpr ⟨target, hlookup, by simpa using hnot, rfl⟩)
  have htarget : target ≠ "" := by
    rintro rfl
    cases hvalid
  have hleast := default_leastFree hname
  rw [hlookup, Option.getD_some] at hleast
  rwa [hleast.isIdentifier_eq htarget]

lemma requestBase_eq (request : NameRequest) : requestBase request =
    ((nameText (request.graph.node request.schema) request.hint).map typeIdentifier).getD
      anonymous := baseName_eq _ _

lemma unnameable_of_invalid (hname : Naming.default settings request = .ok name)
    (hinvalid : isIdentifier name = false) :
    Unnameable settings (nameText (request.graph.node request.schema) request.hint) := by
  have hbase := requestBase_eq request
  generalize nameText (request.graph.node request.schema) request.hint = source at hbase ⊢
  cases hlookup : settings.mappings.lookup (requestBase request) with
  | some target => cases (isIdentifier_of_mapped hname hlookup).symm.trans hinvalid
  | none =>
    have hleast := default_leastFree hname
    rw [hlookup, Option.getD_none, hbase] at hleast
    rw [hbase] at hlookup
    cases source with
    | none =>
      rw [hleast.isIdentifier_eq (by decide)] at hinvalid
      cases isIdentifier_anonymous.symm.trans hinvalid
    | some text =>
      rw [hleast.isIdentifier_eq (typeIdentifier_ne_empty text)] at hinvalid
      refine ⟨text, rfl, hlookup, fun hnameable => ?_⟩
      cases ((isIdentifier_typeIdentifier text).mpr hnameable).symm.trans hinvalid

/-- What a name is made of decides whether it is an identifier, and not which names are taken. -/
lemma default_invalid_iff :
    (∃ name, Naming.default settings request = .ok name ∧ isIdentifier name = false) ↔
      Unnameable settings (nameText (request.graph.node request.schema) request.hint) := by
  refine ⟨fun ⟨name, hname, hinvalid⟩ => unnameable_of_invalid hname hinvalid, ?_⟩
  rintro ⟨text, htext, hunmapped, hnot⟩
  have hbase : requestBase request = typeIdentifier text := by
    rw [requestBase_eq, htext, Option.map_some, Option.getD_some]
  have hlookup : settings.mappings.lookup (requestBase request) = none := by rwa [hbase]
  obtain ⟨name, hname⟩ : ∃ name, Naming.default settings request = .ok name :=
    default_ok (by simp [hlookup])
  have hleast := default_leastFree hname
  rw [hlookup, Option.getD_none, hbase] at hleast
  refine ⟨name, hname, ?_⟩
  rw [hleast.isIdentifier_eq (typeIdentifier_ne_empty text), ← Bool.not_eq_true]
  exact mt (isIdentifier_typeIdentifier text).mp hnot

end Naming

/-- With the default generator a schema without a name is refused as having no identifier if and
only if its text is not nameable, where its text is that of the document or else the hint. No call
fails with such an error but at such a schema. -/
theorem unnameable_texts_refused {d : Document} {settings : NamingSettings} {env : Environment}
    {s : Session} (hgenerator : env.generator = Naming.default settings)
    (hrun : Run env { graph := d.graph } s) :
    (∀ text, isIdentifier (typeIdentifier text) ↔ Nameable text) ∧
    (∀ id hint,
      (∃ name, (assign id hint env s).1 = .error (.naming (.invalidIdentifier name))) ↔
        s.nameOf? id = none ∧ Unnameable settings (nameText (d.graph.node id) hint)) ∧
    ∀ name,
      (∃ call : Call, (call.run env s).1 = .error (.naming (.invalidIdentifier name))) ∨
        (∃ other : Document, (other.emit env s).1 = .error (.naming (.invalidIdentifier name))) →
      ∃ t id hint, Run env s t ∧ t.nameOf? id = none ∧
        Unnameable settings (nameText (d.graph.node id) hint) := by
  have hrefused {t : Session} (ht : Run env s t) {id : SchemaId} {hint : Option String} :
      (∃ name, t.Refused env id hint (.invalidIdentifier name)) ↔
        Unnameable settings (nameText (d.graph.node id) hint) := by
    have hlater : Run env { graph := d.graph } t := hrun.trans ht
    have htext : nameText (t.graph.node id) hint = nameText (d.graph.node id) hint := by
      rw [nameText, ownName_grows (hlater.grows id), nameText]
    have hinvalid : (∃ name, Naming.default settings (t.request id hint) = .ok name ∧
        isIdentifier name = false) ↔ Unnameable settings (nameText (t.graph.node id) hint) :=
      default_invalid_iff
    rw [← htext, ← hinvalid, ← hgenerator]
    constructor
    · rintro ⟨name, hname⟩
      cases hname with
      | answer h =>
        rw [hgenerator] at h
        obtain ⟨_, _, _, heq⟩ := default_eq_error_iff.mp h
        cases heq
      | identifier h invalid => exact ⟨name, h, invalid⟩
    · rintro ⟨name, h, invalid⟩
      exact ⟨name, .identifier h invalid⟩
  refine ⟨isIdentifier_typeIdentifier, fun id hint => ?_, fun name h => ?_⟩
  · rw [← hrefused .refl]
    constructor
    · rintro ⟨name, h⟩
      obtain ⟨unnamed, _, heq, h⟩ := assign_fails h
      cases heq
      exact ⟨unnamed, name, h⟩
    · rintro ⟨unnamed, name, h⟩
      exact ⟨name, by rw [assign_refused unnamed h]⟩
  · have hfails : Fails env s (.naming (.invalidIdentifier name)) := by
      rcases h with ⟨call, h⟩ | ⟨other, h⟩
      · have hcall : Reports env s call.run := call.run_reports
        exact hcall.2 _ h
      · have hemit : Reports env s other.emit := other.emit_reports
        exact hemit.2 _ h
    cases hfails with
    | refused ht unnamed h => exact ⟨_, _, _, ht, unnamed, (hrefused ht).mp ⟨name, h⟩⟩

/-- Two words give an identifier. A numeral of another script, a small letter whose capital takes a
mark, and a dotted capital inside a word give none. -/
lemma nameable_texts : Nameable "pet owner" ∧ ¬Nameable "\u0663" ∧ ¬Nameable "\u01F0" ∧
    ¬Nameable "X\u0130" := by
  decide +kernel

/-- An interface whose title is an Arabic digit three. -/
def numeralTitle : String :=
  "\x7b\"title\":\"\u0663\",\"properties\":\x7b\"a\":\x7b\x7d\x7d\x7d"

lemma numeralTitle_loads :
    ∃ d, Document.ofJson numeralTitle = .ok d ∧ ownName (d.graph.node 0) = some "\u0663" ∧
      ∃ e, (d.emit (.ofSettings {}) { graph := d.graph }).1 = .error e ∧
        e = .naming (.invalidIdentifier "\u0663") := by
  decide +kernel

theorem numeralTitle_refused :
    ∃ d, Document.ofJson numeralTitle = .ok d ∧
      (Environment.ofSettings {}).generator = Naming.default {} ∧
      Run (.ofSettings {}) { graph := d.graph } { graph := d.graph } ∧
      isIdentifier (typeIdentifier "pet owner") ∧
      ∃ name, (assign 0 none (.ofSettings {}) { graph := d.graph }).1 =
        .error (.naming (.invalidIdentifier name)) := by
  obtain ⟨d, hload, hown, _⟩ := numeralTitle_loads
  obtain ⟨htexts, hassign, _⟩ :=
    @unnameable_texts_refused d {} (.ofSettings {}) { graph := d.graph } rfl .refl
  obtain ⟨hnameable, hnot, _⟩ := nameable_texts
  have hunnameable : Unnameable {} (some "\u0663") := ⟨"\u0663", rfl, rfl, hnot⟩
  refine ⟨d, hload, rfl, .refl, (htexts _).mpr hnameable, (hassign 0 none).mpr ⟨rfl, ?_⟩⟩
  rwa [nameText, hown]

/-- Three texts give no identifiers, and the title of such a text fails a file. -/
theorem texts_without_identifier :
    isIdentifier (typeIdentifier "\u0663") = false ∧
      isIdentifier (typeIdentifier "\u01F0") = false ∧
      isIdentifier (typeIdentifier "X\u0130") = false ∧
      ∃ d, Document.ofJson numeralTitle = .ok d ∧
        (d.emit (.ofSettings {}) { graph := d.graph }).1 =
          .error (.naming (.invalidIdentifier "\u0663")) := by
  obtain ⟨d, hload, _, e, hemit, rfl⟩ := numeralTitle_loads
  obtain ⟨_, hnumeral, hmarked, hdotted⟩ := nameable_texts
  simp only [← Bool.not_eq_true, isIdentifier_typeIdentifier]
  exact ⟨hnumeral, hmarked, hdotted, d, hload, hemit⟩

end SchemaTypes
