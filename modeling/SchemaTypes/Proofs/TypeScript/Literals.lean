import SchemaTypes.Proofs.Session.Labels
import SchemaTypes.Proofs.TypeScript.Declarations
import SchemaTypes.Proofs.TypeScript.References

/-! The literals by which an interface is told from others. They are those of the discriminator
that its schema has when the declaration begins. -/

namespace SchemaTypes

open Session

/-- The field with this key, and no other with it, has the type of these literals. -/
structure Shape.Literals (fields : List Field) (key : String) (values : List String) : Prop where
  exists_field : ∃ field ∈ fields, field.key = key
  type : ∀ field ∈ fields, field.key = key → field.type = .literals values

namespace SessionM

variable {env : Environment} {s : Session} {d : Discriminator SchemaId}

lemma fieldType_discriminator (id : SchemaId) :
    fieldType (some d) d.property id = pure (.literals (d.mapping.map (·.1))) := by
  simp [fieldType, Option.filter]

lemma declareFields_literals (required : List String) (properties : List (String × SchemaId)) :
    Leads env s (declareFields (some d) required properties) fun fields _ =>
      fields.map (·.key) = properties.map (·.1) ∧
        ∀ field ∈ fields, field.key = d.property →
          field.type = .literals (d.mapping.map (·.1)) := by
  induction properties generalizing s with
  | nil => exact .pure (by simp)
  | cons property rest ih =>
    obtain ⟨key, id⟩ := property
    have hfield : Leads env s (declareField (some d) required key id) fun field _ =>
        field.key = key ∧
          (field.key = d.property → field.type = .literals (d.mapping.map (·.1))) := by
      by_cases hkey : key = d.property
      · subst hkey
        rw [declareField, fieldType_discriminator, pure_bind]
        exact .look graph_apply (.pure ⟨rfl, fun _ => rfl⟩)
      · refine (fieldType_leads _ key id).bind fun type t _ _ => ?_
        exact .look graph_apply (.pure ⟨rfl, fun h => absurd h hkey⟩)
    refine hfield.bind fun field t _ hfield => ih.bind fun fields u _ hfields => .pure ?_
    refine ⟨by simp [hfield.1, hfields.1], ?_⟩
    exact List.forall_mem_cons.mpr ⟨hfield.2, hfields.2⟩

lemma literals_append {fields : List Field} {properties : List (String × SchemaId)}
    (hkeys : fields.map (·.key) = properties.map (·.1))
    (htypes : ∀ field ∈ fields, field.key = d.property →
      field.type = .literals (d.mapping.map (·.1))) :
    Shape.Literals (fields ++ addedField properties (some d)) d.property
      (d.mapping.map (·.1)) := by
  rw [addedField]
  split
  · rename_i hhas
    rw [List.append_nil]
    refine ⟨?_, htypes⟩
    rw [Entries.has_iff, ← hkeys] at hhas
    exact List.mem_map.mp hhas
  · refine ⟨⟨_, List.mem_append_right _ (List.mem_singleton.mpr rfl), rfl⟩,
      fun field hfield hkey => ?_⟩
    rcases List.mem_append.mp hfield with hfield | hfield
    · exact htypes field hfield hkey
    · rw [List.mem_singleton.mp hfield]

lemma declareInterface_literals {id : SchemaId} (hd : d ∈ (s.graph.node id).discriminator)
    (hmapping : d.mapping ≠ []) (name : String) :
    Leads env s (declareInterface id name) fun decl _ => ∃ parents fields indexed,
      decl.shape = .interface parents fields indexed ∧
        Shape.Literals fields d.property (d.mapping.map (·.1)) := by
  have hsome : (s.graph.node id).discriminator.filter (!·.mapping.isEmpty) = some d := by
    rw [Option.mem_def] at hd
    simp [hd, Option.filter, hmapping]
  refine .look graph_apply ?_
  refine (collectParts_leads _ (List.nil_subset _)).bind fun parts t _ _ => ?_
  simp only [hsome]
  refine (declareFields_literals _ _).bind fun fields u _ hfields => .pure ?_
  exact ⟨_, _, _, rfl, literals_append hfields.1 hfields.2⟩

lemma declare_literals {id : SchemaId} (hd : d ∈ (s.graph.node id).discriminator)
    (hmapping : d.mapping ≠ []) (name : String) :
    Leads env s (declare id name) fun decl _ => ∀ parents fields indexed,
      decl.shape = .interface parents fields indexed →
        Shape.Literals fields d.property (d.mapping.map (·.1)) := by
  have hchoice (choice : Choice) : Leads env s (declareChoice choice) fun decl _ =>
      ∀ parents fields indexed, decl.shape = .interface parents fields indexed →
        Shape.Literals fields d.property (d.mapping.map (·.1)) := by
    refine (variants_spells choice).bind fun found t _ _ => ?_
    exact .look graph_apply (.pure fun _ _ _ h => by cases h)
  refine .look get_apply ?_
  simp only
  split
  · exact hchoice _
  · split
    · exact hchoice _
    · split
      · exact .pure fun _ _ _ h => by cases h
      · split
        · exact (aliasTarget_spells id).bind fun e t _ _ => .pure fun _ _ _ h => by cases h
        · split
          · exact .pure fun _ _ _ h => by cases h
          · refine (declareInterface_literals hd hmapping name).mono fun decl t _ h => ?_
            rintro parents fields indexed hshape
            obtain ⟨_, _, _, hinterface, hliterals⟩ := h
            rw [hshape] at hinterface
            cases hinterface
            exact hliterals

lemma emit_between :
    Leads env s emit fun text t => ∃ ds, text = fileText env.typescript.exported ds ∧
      List.Forall₂ (DeclaredBetween env s t) t.types ds :=
  .look read_apply (declarations_between.bind fun ds _ _ h => .pure ⟨ds, rfl, h⟩)

end SessionM

namespace Document

open SessionM

variable {text : String} {d : Document} {env : Environment} {s : Session}

/-- What the fields of an interface say about these hierarchies. Its one property is the schema's
own if the document gives it one, and else that of the first hierarchy. -/
structure LabelField (d : Document) (wrappers : List (SchemaId × SchemaId)) (id : SchemaId)
    (fields : List Field) (property : String) (values : List String) : Prop where
  own : ∀ own ∈ (d.graph.node id).discriminator, property = own.property
  first : (d.graph.node id).discriminator = none → FirstProperty d.graph wrappers id property
  literals : Shape.Literals fields property values
  complete : ∀ choice wrapper value, Assigns d.graph wrappers choice wrapper value id →
    value ∈ values
  sound : ∀ value ∈ values, Labels d.graph wrappers id value

lemma emit_between (d : Document) :
    Leads env { graph := d.graph } d.emit fun files s => ∃ ds,
      files = [⟨"types.ts", fileText env.typescript.exported ds⟩] ∧
        List.Forall₂ (DeclaredBetween env (d.registered env) s) s.types ds := by
  refine d.register_leads.equation.bind fun _ t _ hregister => ?_
  have ht : t = d.registered env := by rw [registered, hregister]
  refine SessionM.emit_between.bind fun text u _ h => .pure ?_
  obtain ⟨ds, rfl, hds⟩ := h
  exact ⟨ds, rfl, ht ▸ hds⟩

/-- An interface has one field for all hierarchies of its schema. Its literals are the values that
the wrapped definitions have for the schema when its declaration begins, and those that the schema
maps itself. -/
theorem interface_labels (hload : ofJson text = .ok d ∨ ofYaml text = .ok d)
    {files : List GeneratedFile} (hemit : d.emit env { graph := d.graph } = (.ok files, s)) :
    ∃ ds, files = [⟨"types.ts", fileText env.typescript.exported ds⟩] ∧
      List.Forall₂ (fun entry decl => decl.name = entry.2 ∧
        ∃ u v, Run env (d.registered env) u ∧ declare entry.1 entry.2 env u = (.ok decl, v) ∧
          Run env v s ∧ ∀ parents fields indexed,
            decl.shape = .interface parents fields indexed →
            (∃ choice wrapper value, Assigns d.graph u.wrappers choice wrapper value entry.1) →
            ∃ property values, d.LabelField u.wrappers entry.1 fields property values)
        s.types ds := by
  obtain ⟨root, hrepresents⟩ := represents_of_load hload
  obtain ⟨rank, hrank⟩ := hrepresents.exists_ranked
  have hclosed := hrepresents.closed
  obtain ⟨_, ds, hfiles, hdeclared⟩ := d.emit_between.result hemit
  refine ⟨ds, hfiles, hdeclared.imp fun entry decl hdecl => ?_⟩
  obtain ⟨u, v, hu, hdeclare, hv⟩ := hdecl
  refine ⟨((declare_declares entry.1 entry.2).result hdeclare).2.1, u, v, hu, hdeclare, hv,
    fun parents fields indexed hshape hassigned => ?_⟩
  have hregister : Run env { graph := d.graph } (d.registered env) := d.register_leads.1
  have hrun : Run env { graph := d.graph } u := hregister.trans hu
  obtain ⟨_, hreshapes⟩ := hrun.reshapes hclosed hrank
  have hlabelled := hrun.labelled hclosed hrank (oneOf_of_reference hload)
  obtain ⟨choice, wrapper, value, hassigns⟩ := hassigned
  have hid := hassigns.maps.lt hclosed
  obtain ⟨c, hc, hvalue⟩ := hlabelled.assigned _ _ _ _ hassigns
  have hmapping : c.mapping ≠ [] := fun hnil => by simp [hnil] at hvalue
  have hunique {c' : Discriminator SchemaId} (hc' : c' ∈ (u.graph.node entry.1).discriminator) :
      c' = c := Option.mem_unique hc' hc
  refine ⟨c.property, c.mapping.map (·.1), ⟨fun own hown => ?_, fun hnone => ?_, ?_, ?_, ?_⟩⟩
  · obtain ⟨b, hb, hsame, _⟩ := (hreshapes.threads entry.1).kept own hown
    rw [← hunique hb, hsame]
  · exact hlabelled.property entry.1 hid hnone c hc
  · exact ((declare_literals hc hmapping entry.2).result hdeclare).2 parents fields indexed hshape
  · intro other earlier value hother
    obtain ⟨b, hb, hvalue⟩ := hlabelled.assigned _ _ _ _ hother
    rwa [hunique hb] at hvalue
  · exact fun value hvalue => hlabelled.labels entry.1 hid value ⟨c, hc, hvalue⟩

/-- Two hierarchies with properties of their own share a subtype, and one has a subtype that maps a
value itself. -/
def sharedText : String :=
  "\x7b\"$defs\":\x7b\"A\":\x7b\"discriminator\":\x7b\"propertyName\":\"k\"\x7d," ++
    "\"oneOf\":[\x7b\"$ref\":\"#/$defs/X\"\x7d,\x7b\"$ref\":\"#/$defs/Y\"\x7d]\x7d," ++
    "\"B\":\x7b\"discriminator\":\x7b\"propertyName\":\"s\"\x7d," ++
    "\"oneOf\":[\x7b\"$ref\":\"#/$defs/X\"\x7d]\x7d,\"X\":\x7b\x7d," ++
    "\"Y\":\x7b\"discriminator\":\x7b\"propertyName\":\"k\"," ++
    "\"mapping\":\x7b\"own\":\"#/$defs/X\"\x7d\x7d\x7d\x7d\x7d"

def sharedFile : String :=
  "// Generated by jstr. Do not edit.\n\nexport type A = X | Y;\n\nexport type B = X;\n\n" ++
    "export interface X \x7b\n  k: \"X\";\n\x7d\n\n" ++
    "export interface Y \x7b\n  k: \"own\" | \"Y\";\n\x7d\n"

lemma shared_emits :
    ∃ d, ofJson sharedText = .ok d ∧
      (∃ files, (d.emit (.ofSettings {}) { graph := d.graph }).1 = .ok files ∧
        files.map (·.content) = [sharedFile]) ∧
      (d.emit (.ofSettings {}) { graph := d.graph }).2.types =
        [(8, "A"), (9, "B"), (3, "X"), (4, "Y")] ∧
      (d.emit (.ofSettings {}) { graph := d.graph }).2.wrappers = [(1, 8), (2, 9)] ∧
      (∃ c ∈ (d.graph.node 1).discriminator, c.property = "k" ∧
        c.mapping.map (fun entry => (entry.1, (d.emit (.ofSettings {})
          { graph := d.graph }).2.graph.actual entry.2)) = [("X", 3), ("Y", 4)]) ∧
      (∃ c ∈ (d.graph.node 2).discriminator, c.property = "s" ∧
        c.mapping.map (fun entry => (entry.1, (d.emit (.ofSettings {})
          { graph := d.graph }).2.graph.actual entry.2)) = [("X", 3)]) ∧
      Assigns d.graph (d.registered (.ofSettings {})).wrappers 1 8 "X" 3 ∧
      Assigns d.graph (d.registered (.ofSettings {})).wrappers 2 9 "X" 3 := by
  decide +kernel

theorem shared_interface_labels :
    ∃ d files s, ofJson sharedText = .ok d ∧
      d.emit (.ofSettings {}) { graph := d.graph } = (.ok files, s) ∧
      Assigns d.graph (d.registered (.ofSettings {})).wrappers 1 8 "X" 3 ∧
      Assigns d.graph (d.registered (.ofSettings {})).wrappers 2 9 "X" 3 ∧
      ∃ ds, files = [⟨"types.ts", fileText true ds⟩] ∧
        List.Forall₂ (fun entry decl => decl.name = entry.2 ∧
          ∃ u v, Run (.ofSettings {}) (d.registered (.ofSettings {})) u ∧
            declare entry.1 entry.2 (.ofSettings {}) u = (.ok decl, v) ∧
            Run (.ofSettings {}) v s ∧ ∀ parents fields indexed,
              decl.shape = .interface parents fields indexed →
              (∃ choice wrapper value, Assigns d.graph u.wrappers choice wrapper value entry.1) →
              ∃ property values, d.LabelField u.wrappers entry.1 fields property values)
          s.types ds := by
  obtain ⟨d, hload, ⟨files, hfiles, _⟩, _, _, _, _, hfirst, hsecond⟩ := shared_emits
  obtain ⟨s, hemit⟩ : ∃ s, d.emit (.ofSettings {}) { graph := d.graph } = (.ok files, s) :=
    ⟨(d.emit (.ofSettings {}) { graph := d.graph }).2, Prod.ext hfiles rfl⟩
  have hlabels := interface_labels (.inl hload) hemit
  exact ⟨d, files, s, hload, hemit, hfirst, hsecond, hlabels⟩

/-- `X` is a subtype of both hierarchies, but its interface has no field for the property of the
second one. In the interface of `Y` there is a literal that no hierarchy has for it. -/
theorem shared_unlabelled :
    ∃ d, ofJson sharedText = .ok d ∧
      let s := (d.emit (.ofSettings {}) { graph := d.graph }).2
      s.types = [(8, "A"), (9, "B"), (3, "X"), (4, "Y")] ∧ s.wrappers = [(1, 8), (2, 9)] ∧
      (∃ c ∈ (d.graph.node 1).discriminator, c.property = "k" ∧
        c.mapping.map (fun entry => (entry.1, s.graph.actual entry.2)) = [("X", 3), ("Y", 4)]) ∧
      (∃ c ∈ (d.graph.node 2).discriminator, c.property = "s" ∧
        c.mapping.map (fun entry => (entry.1, s.graph.actual entry.2)) = [("X", 3)]) ∧
      ∃ files, (d.emit (.ofSettings {}) { graph := d.graph }).1 = .ok files ∧
        files.map (·.content) = [sharedFile] := by
  obtain ⟨d, hload, hfiles, htypes, hwrappers, hfirst, hsecond, _⟩ := shared_emits
  exact ⟨d, hload, htypes, hwrappers, hfirst, hsecond, hfiles⟩

end Document

end SchemaTypes
