import SchemaTypes.Proofs.Session.Occasions
import SchemaTypes.Proofs.TypeScript.Definitions
import SchemaTypes.Proofs.TypeScript.Seeking

/-! How definitions come by their names. A wrapper has the name that its definition's key gives;
what the definition says of its own name counts where it is named itself. -/

namespace SchemaTypes

open Session SessionM

namespace Session

variable {settings : Settings} {s t : Session} {g : Graph}

/-- Names come from what the schemas say that they are called, if they say so. -/
def Titled (settings : Settings) (g : Graph) (s : Session) : Prop :=
  ∀ id name text, s.nameOf? id = some name → Naming.ownName (g.node id) = some text →
    Naming.Derived settings.resolver.naming (Text.typeIdentifier text) name

lemma Step.titled (h : Step (.ofSettings settings) s t) (hgrows : g.Grows s.graph)
    (hs : Titled settings g s) : Titled settings g t := by
  cases h with
  | beginRegistration | endRegistration | beginExpansion | endExpansion | refuse => exact hs
  | prepare id =>
    intro other name text hname
    rw [nameOf?, prepare_types] at hname
    exact hs other name text hname
  | name id hint name hunnamed hgenerated =>
    intro other name' text hname' hown
    by_cases hsame : other = id
    · subst hsame
      have hlast := nameOf?_give (s := { s with requests := s.requests + 1 }) hunnamed name
      rw [hlast] at hname'
      cases hname'
      exact Naming.derived_of_own hgenerated ((Naming.ownName_grows (hgrows other)).trans hown)
    · exact hs other name' text (nameOf?_of_give hsame hname') hown

lemma Run.titled (h : Run (.ofSettings settings) { graph := g } s) : Titled settings g s := by
  have hboth : g.Grows s.graph ∧ Titled settings g s := by
    refine h.keeps (fun hstep hs => ⟨hs.1.trans hstep.grows, hstep.titled hs.1 hs.2⟩) ⟨.refl g, ?_⟩
    intro id name text hname
    cases hname
  exact hboth.2

end Session

namespace Document

section

variable {text : String} {d : Document} {env : Environment} {s t : Session} {id : SchemaId}
  (hload : ofJson text = .ok d ∨ ofYaml text = .ok d)

include hload

/-- A usage is asked for where what it leads to has no wrapper. -/
lemma sought_occasion (hrun : Run env { graph := d.graph } s)
    (h : s.Sought env.resolver.inlineNamedAny id) (hlt : s.graph.carrier id < d.graph.size) :
    s.Occasion d.root id := by
  obtain ⟨root, hrepresents⟩ := represents_of_load hload
  have hextends := hrun.extends (.start hrepresents.closed)
  cases h with
  | wrapper base h =>
    rw [(hrun.plainWrappers (.start d.graph)).carrier h] at hlt
    exact absurd hlt (Nat.not_lt.mpr (hextends.size_le_wrapper h))
  | container h => exact .container (by simpa using h)
  | part owner hname hpart href => exact .part owner hname hpart href
  | usage hwrapper =>
    refine .unwrapped ?_
    by_contra hsome
    obtain ⟨wrapper, hbase⟩ := Option.ne_none_iff_exists'.mp hsome
    have hend := base_inline hload hextends (hextends.wrapper?_eq_some.mp hbase)
    have hself : s.graph.actual (s.graph.carrier id) = s.graph.carrier id := by
      apply Graph.actual_of_reference
      rw [(hrun.grows _).reference]
      exact hend
    have hactual : s.graph.actual (s.graph.resolvable env.resolver.inlineNamedAny id) =
        s.graph.carrier id := by
      rcases s.graph.resolvable_cases env.resolver.inlineNamedAny id with heq | heq <;> rw [heq]
      · rfl
      · exact hself
    rw [hactual, hbase] at hwrapper
    cases hwrapper

lemma sought_accounts (id : SchemaId) (hint : Option String) (name : String)
    (hs : Accounted env d s) (hid : s.Sought env.resolver.inlineNamedAny id)
    (h : SessionM.typeName id hint env s = (.ok name, t)) : Accounted env d t := by
  obtain ⟨root, hrepresents⟩ := represents_of_load hload
  have hextends := hs.run.extends (.start hrepresents.closed)
  exact typeName_accounts hload s id hint name t hs (hid.lt hextends)
    (sought_occasion hload hs.run hid) h

/-- While types are spelled and declared, names stay accounted for. -/
def accounting (env : Environment) : Watch env :=
  .keeping (Accounted env d)
    (fun _ id hint name _ => sought_accounts hload id hint name)
    (fun _ id hint hs => hs.step (.beginExpansion id hint) hs.named rfl rfl)
    (fun _ id hs => hs.step (.endExpansion id) hs.named rfl rfl)

lemma register_accounted (h : d.register env { graph := d.graph } = (.ok (), s)) :
    Accounted env d s := by
  obtain ⟨root, hrepresents⟩ := represents_of_load hload
  obtain ⟨_, t, hdefinitions, hroot⟩ := bind_eq_ok h
  have ht := register_accounts hload .start hdefinitions
  rw [bind_ok (isDefinitionType_apply _), bind_ok graph_apply] at hroot
  split at hroot
  · rw [bind_ok read_apply, discard_eq_bind] at hroot
    obtain ⟨name, u, hname, hpure⟩ := bind_eq_ok hroot
    cases hpure
    have hextends := ht.run.extends (.start hrepresents.closed)
    have hlt : d.root < t.graph.size := by
      rw [hrepresents.root_eq]
      exact Nat.lt_of_lt_of_le hrepresents.size_pos hextends.le_size
    exact typeName_accounts hload t d.root _ name _ ht hlt (fun _ => .root rfl) hname
  · cases hroot
    exact ht

lemma emit_accounted {files : List GeneratedFile}
    (hemit : d.emit env { graph := d.graph } = (.ok files, s)) : Accounted env d s := by
  obtain ⟨_, t, hregister, hrest⟩ := bind_eq_ok hemit
  obtain ⟨text, u, hlast, hpure⟩ := bind_eq_ok hrest
  cases hpure
  exact ((accounting hload env).emit t (register_accounted hload hregister)).2 text _ hlast

/-- Every wrapper has a name. A definition that has a wrapper also has a name of its own, just if it
was asked for itself: before it got the wrapper, or by the root, a list or dictionary, another
definition or a part of a declared schema that leads to it. -/
theorem wrapped_named_iff_asked {files : List GeneratedFile}
    (hemit : d.emit env { graph := d.graph } = (.ok files, s)) {definition wrapper : SchemaId}
    (hwrapper : s.wrapper? definition = some wrapper) :
    (∃ name, s.nameOf? wrapper = some name) ∧
      ((∃ name, s.nameOf? definition = some name) ↔
        ∃ u id, AskedAt env d s definition u id) := by
  obtain ⟨root, hrepresents⟩ := represents_of_load hload
  have hs := emit_accounted hload hemit
  have hextends := hs.run.extends (.start hrepresents.closed)
  have hmem := hextends.wrapper?_eq_some.mp hwrapper
  refine ⟨?_, fun ⟨name, hname⟩ => hs.asked definition name (hextends.base_lt hmem) hname, ?_⟩
  · obtain ⟨_, _, _, _, name, _, _, _, _, hname⟩ := hs.lodged _ hmem
    exact ⟨name, hname⟩
  · rintro ⟨u, id, _, _, hcarrier, _, depth, hint, name, t, hcall, hlater⟩
    have hname := ((typeNameWithin_leads depth id hint).result hcall).2
    rw [hcarrier] at hname
    exact ⟨name, hlater.nameOf? hname⟩

end

/-- A file is made, and in the end both the definition and its wrapper have a name. -/
def NamesTwice (d : Document) (definition wrapper : SchemaId) (name : String) : Prop :=
  let result := d.emit (.ofSettings {}) { graph := d.graph }
  (∃ files, result.1 = .ok files ∧ True) ∧ result.2.wrapper? definition = some wrapper ∧
    result.2.nameOf? definition = some name

instance (d : Document) (definition wrapper : SchemaId) (name : String) :
    Decidable (d.NamesTwice definition wrapper name) :=
  inferInstanceAs (Decidable (_ ∧ _ ∧ _))

/-- A choice with a discriminator that is a part of one of its alternatives. -/
def partText : String :=
  "\x7b\"$defs\":\x7b\"Pet\":\x7b\"type\":\"object\"," ++
    "\"discriminator\":\x7b\"propertyName\":\"kind\"\x7d,\"oneOf\":[\x7b\"$ref\":\"#/$defs/Cat\"\x7d]" ++
    "\x7d,\"Cat\":\x7b\"type\":\"object\",\"allOf\":[\x7b\"$ref\":\"#/$defs/Pet\"\x7d]\x7d\x7d\x7d"

/-- A definition that is null or a choice with a discriminator. -/
def nullableText : String :=
  "\x7b\"$defs\":\x7b\"Pet\":\x7b\"discriminator\":\x7b\"propertyName\":\"k\"\x7d," ++
    "\"oneOf\":[\x7b\"$ref\":\"#/$defs/Cat\"\x7d]\x7d,\"Cat\":\x7b\x7d," ++
    "\"Maybe\":\x7b\"oneOf\":[\x7b\"type\":\"null\"\x7d,\x7b\"$ref\":\"#/$defs/Pet\"\x7d]\x7d\x7d\x7d"

/-- A root that is a choice with a discriminator and one of its own definitions. -/
def selfText : String :=
  "\x7b\"type\":\"object\",\"discriminator\":\x7b\"propertyName\":\"k\"\x7d," ++
    "\"oneOf\":[\x7b\"$ref\":\"#/$defs/Cat\"\x7d]," ++
    "\"$defs\":\x7b\"Self\":\x7b\"$ref\":\"#\"\x7d,\"Cat\":\x7b\x7d\x7d\x7d"

lemma part_named_twice : ∃ d, ofJson partText = .ok d ∧ d.NamesTwice 1 5 "Anonymous" := by
  decide +kernel

theorem part_asked :
    ∃ d files s, ofJson partText = .ok d ∧
      d.emit (.ofSettings {}) { graph := d.graph } = (.ok files, s) ∧
      s.wrapper? 1 = some 5 ∧ (∃ name, s.nameOf? 5 = some name) ∧
      ((∃ name, s.nameOf? 1 = some name) ↔
        ∃ u id, AskedAt (.ofSettings {}) d s 1 u id) := by
  obtain ⟨d, hload, ⟨files, hfiles, _⟩, hwrapper, _⟩ := part_named_twice
  have hemit : d.emit (.ofSettings {}) { graph := d.graph } =
      (.ok files, (d.emit (.ofSettings {}) { graph := d.graph }).2) := Prod.ext hfiles rfl
  exact ⟨d, files, _, hload, hemit, hwrapper, wrapped_named_iff_asked (.inl hload) hemit hwrapper⟩

/-- A choice that has a wrapper is named too: as a part of a declared schema, for a definition that
admits null besides, and as the root. -/
theorem wrapped_definitions_named :
    (∃ d, ofJson partText = .ok d ∧ d.NamesTwice 1 5 "Anonymous") ∧
      (∃ d, ofJson nullableText = .ok d ∧ d.NamesTwice 1 7 "Maybe") ∧
      ∃ d, ofJson selfText = .ok d ∧ d.NamesTwice 0 4 "Root" :=
  ⟨part_named_twice, by decide +kernel, by decide +kernel⟩

/-- What a schema says that it is called is what its name comes from. The name of a wrapper comes
from the key of an entry that leads to its definition. -/
theorem names_derived {text : String} {d : Document} {s : Session}
    (hload : ofJson text = .ok d ∨ ofYaml text = .ok d) {settings : Settings} {files : List GeneratedFile}
    (hemit : d.emit (.ofSettings settings) { graph := d.graph } = (.ok files, s)) :
    (∀ id name text, s.nameOf? id = some name → Naming.ownName (d.graph.node id) = some text →
      Naming.Derived settings.resolver.naming (Text.typeIdentifier text) name) ∧
    ∀ definition wrapper, s.wrapper? definition = some wrapper →
      ∃ name owner key entry, s.nameOf? wrapper = some name ∧
        (key, entry) ∈ (d.graph.node owner).definitions ∧ d.graph.actual entry = definition ∧
        Naming.Derived settings.resolver.naming (Naming.keyName key) name := by
  obtain ⟨root, hrepresents⟩ := represents_of_load hload
  have hs := emit_accounted hload hemit
  have hextends := hs.run.extends (.start hrepresents.closed)
  refine ⟨hs.run.titled, fun definition wrapper hwrapper => ?_⟩
  have hmem := hextends.wrapper?_eq_some.mp hwrapper
  obtain ⟨u, owner, key, entry, name, hu, hentry, hactual, hgenerated, hname⟩ := hs.lodged _ hmem
  refine ⟨name, owner, key, entry, hname, hentry, hactual, Naming.derived_of_key hgenerated ?_ rfl⟩
  -- A wrapper is made without a title.
  have hnode := Naming.ownName_grows (hu.grows wrapper)
  have hempty := Graph.node_of_size_le (hextends.size_le_wrapper hwrapper)
  rw [hempty] at hnode
  exact hnode

/-- A choice with a discriminator that has a title, and an alternative that has one. -/
def titledText : String :=
  "\x7b\"$defs\":\x7b\"Pet\":\x7b\"title\":\"Animal\"," ++
    "\"discriminator\":\x7b\"propertyName\":\"k\"\x7d,\"oneOf\":[\x7b\"$ref\":\"#/$defs/Cat\"\x7d]\x7d," ++
    "\"Cat\":\x7b\"title\":\"Small cat\"\x7d\x7d\x7d"

lemma titled_emits :
    ∃ d, ofJson titledText = .ok d ∧
      (∃ files, (d.emit (.ofSettings {}) { graph := d.graph }).1 = .ok files ∧ True) ∧
      ("Pet", 1) ∈ d.definitions ∧ Naming.ownName (d.graph.node 1) = some "Animal" ∧
      (d.emit (.ofSettings {}) { graph := d.graph }).2.wrapper? 1 = some 4 ∧
      (d.emit (.ofSettings {}) { graph := d.graph }).2.types = [(4, "Pet"), (2, "SmallCat")] := by
  decide +kernel

theorem titled_names_derived :
    ∃ d files s, ofJson titledText = .ok d ∧
      d.emit (.ofSettings {}) { graph := d.graph } = (.ok files, s) ∧
      (∀ id name text, s.nameOf? id = some name → Naming.ownName (d.graph.node id) = some text →
        Naming.Derived {} (Text.typeIdentifier text) name) ∧
      ∀ definition wrapper, s.wrapper? definition = some wrapper →
        ∃ name owner key entry, s.nameOf? wrapper = some name ∧
          (key, entry) ∈ (d.graph.node owner).definitions ∧ d.graph.actual entry = definition ∧
          Naming.Derived {} (Naming.keyName key) name := by
  obtain ⟨d, hload, ⟨files, hfiles, _⟩, _⟩ := titled_emits
  have hemit : d.emit (.ofSettings {}) { graph := d.graph } =
      (.ok files, (d.emit (.ofSettings {}) { graph := d.graph }).2) := Prod.ext hfiles rfl
  exact ⟨d, files, _, hload, hemit, names_derived (.inl hload) hemit⟩

/-- The title of a choice with a discriminator is not the name of its wrapper. -/
theorem title_not_wrapper_name :
    ∃ d files s, ofJson titledText = .ok d ∧
      d.emit (.ofSettings {}) { graph := d.graph } = (.ok files, s) ∧
      ("Pet", 1) ∈ d.definitions ∧ Naming.ownName (d.graph.node 1) = some "Animal" ∧
      s.nameOf? 1 = none ∧ ∃ wrapper name, s.wrapper? 1 = some wrapper ∧
        s.nameOf? wrapper = some name ∧
        ¬ Naming.Derived {} (Text.typeIdentifier "Animal") name := by
  obtain ⟨d, hload, ⟨files, hfiles, _⟩, hentry, hown, hwrapper, htypes⟩ := titled_emits
  have hemit : d.emit (.ofSettings {}) { graph := d.graph } =
      (.ok files, (d.emit (.ofSettings {}) { graph := d.graph }).2) := Prod.ext hfiles rfl
  refine ⟨d, files, _, hload, hemit, hentry, hown, by simp [nameOf?, htypes], 4, "Pet", hwrapper,
    by simp [nameOf?, htypes], fun h => ?_⟩
  exact absurd (h.isPrefix rfl) (by decide +kernel)

end Document

end SchemaTypes
