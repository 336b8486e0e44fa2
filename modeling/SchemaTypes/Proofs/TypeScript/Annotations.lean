import SchemaTypes.Proofs.Schema.Annotations
import SchemaTypes.Proofs.Session.Annotations
import SchemaTypes.Proofs.TypeScript.Outlines

/-! Annotations change nothing but comments. Two documents that differ in annotations only lead to
the same names, to the same graphs but for these, and to files that differ in comments only. -/

namespace SchemaTypes

def Field.bare (field : Field) : Field := { field with description := none }

def Shape.bare : Shape → Shape
  | .interface parents fields indexed => .interface parents (fields.map Field.bare) indexed
  | shape => shape

/-- The declaration without the comments that it is written with. -/
def Declaration.bare (d : Declaration) : Declaration :=
  { d with description := none, shape := d.shape.bare }

namespace SessionM

variable {env : Environment}

lemma spellNullable_ignores (nullable : Bool) (e : TypeExpr) :
    Ignores env (spellNullable nullable e) := by
  apply Erases.reading
  simp only
  split
  · exact .pure
  · exact .pure

section

variable {resolve : Resolver}
  (hresolve : ∀ id nullable hint, Ignores env (resolve id nullable hint))

include hresolve

lemma resolveMember_ignores (id : SchemaId) : Ignores env (resolveMember resolve id) := by
  refine Erases.graph.bind fun g => dialect_ignores.bind fun dialect => ?_
  rw [Graph.isActualNullable_bare]
  exact hresolve _ _ _

lemma resolveMembers_ignores (ids : List SchemaId) : Ignores env (resolveMembers resolve ids) := by
  induction ids with
  | nil => exact .pure
  | cons id rest ih =>
    exact (resolveMember_ignores hresolve id).bind fun _ => ih.bind fun _ => .pure

lemma resolveDistinct_ignores (usages : List (SchemaId × Bool)) (found : List TypeExpr) :
    Ignores env (resolveDistinct resolve found usages) := by
  induction usages generalizing found with
  | nil => exact .pure
  | cons usage rest ih => exact (hresolve _ _ _).bind fun _ => ih _

lemma dictionaryValue_ignores (id : SchemaId) : Ignores env (dictionaryValue resolve id) := by
  refine Erases.graph.bind fun g => ?_
  simp only [Graph.node_bare, Node.additional_bare, Node.closed_bare, Node.patterns_bare,
    Graph.isNullable_bare]
  cases (g.node id).additional with
  | some additional => exact (resolveMember_ignores hresolve additional).bind fun _ => .pure
  | none =>
    simp only
    split
    · refine dialect_ignores.bind fun dialect => ?_
      refine (resolveDistinct_ignores hresolve _ _).bind fun found => ?_
      split
      · exact .pure
      · exact .pure
    · exact .pure

lemma dictionaryKey_ignores (id : SchemaId) : Ignores env (dictionaryKey resolve id) := by
  refine Erases.graph.bind fun g => ?_
  simp only [Graph.node_bare, Node.dictionaryKey_bare]
  cases (g.node id).dictionaryKey with
  | some key => exact (resolveMember_ignores hresolve key).bind fun _ => .pure
  | none => exact .pure

lemma spellContainer_ignores (id : SchemaId) : Ignores env (spellContainer resolve id) := by
  refine Erases.graph.bind fun g => ?_
  simp only [Graph.node_bare, Node.isArray_bare, Node.items_bare]
  split
  · split
    · exact (resolveMembers_ignores hresolve _).bind fun _ => .pure
    · exact (resolveMember_ignores hresolve _).bind fun _ => .pure
    · exact .pure
  · refine (dictionaryKey_ignores hresolve id).bind fun _ => ?_
    exact (dictionaryValue_ignores hresolve id).bind fun _ => .pure

lemma spellUnion_ignores (alternatives : List (Option SchemaId)) :
    Ignores env (spellUnion resolve alternatives) := by
  have halternatives (found : List TypeExpr) :
      Ignores env (resolveAlternatives resolve found alternatives) := by
    induction alternatives generalizing found with
    | nil => exact .pure
    | cons alternative rest ih =>
      cases alternative with
      | none => exact ih _
      | some id => exact (hresolve id false none).bind fun _ => ih _
  exact (halternatives []).bind fun _ => .pure

lemma resolvePlain_ignores (node : Node) : Ignores env (resolvePlain resolve node) := by
  cases node.plain with
  | keyword _ h =>
    rw [h]
    exact .pure
  | union alternatives _ _ _ h =>
    rw [h]
    exact spellUnion_ignores hresolve alternatives

variable (henv : env.generator.IgnoresAnnotations)

include henv

lemma resolveContainer_ignores (id : SchemaId) (hint : Option String) :
    Ignores env (resolveContainer resolve id hint) := by
  refine Erases.get.bind fun s => ?_
  simp only [Session.nameOf?_bare, Session.expanding_bare, Session.graph_bare,
    Graph.definitionKey_bare]
  split
  · exact .pure
  · exact (typeName_ignores henv _ _).bind fun _ => .pure
  · refine ((spellContainer_ignores hresolve id).expansion id hint).bind fun e => ?_
    refine Erases.get.bind fun t => ?_
    simp only [Session.nameOf?_bare]
    split
    · exact .pure
    · exact .pure

lemma resolveBare_ignores (id : SchemaId) (hint : Option String) :
    Ignores env (resolveBare resolve id hint) := by
  have hname (id : SchemaId) (hint : Option String) :
      Ignores env (TypeExpr.ident <$> typeName id hint) := by
    rw [map_eq_pure_bind]
    exact (typeName_ignores henv id hint).bind fun _ => .pure
  refine Erases.get.bind fun s => .reading ?_
  simp only [Session.wrapper?_bare, Session.graph_bare, Graph.resolvable_bare, Graph.actual_bare,
    Graph.isReference_bare, Graph.generatesType_bare, Graph.node_bare, Node.isAny_bare,
    Node.isEnumeration_bare, Node.isArray_bare, Node.isDictionary_bare]
  split
  · exact hname _ _
  · split
    · exact .pure
    · split
      · exact hname _ _
      · split
        · exact resolveContainer_ignores hresolve henv _ _
        · exact resolvePlain_ignores hresolve _

end

section

variable (henv : env.generator.IgnoresAnnotations)

include henv

lemma resolve_ignores (id : SchemaId) (nullable : Bool) (hint : Option String) :
    Ignores env (resolve id nullable hint) := by
  have hwithin (depth : ℕ) (id : SchemaId) (nullable : Bool) (hint : Option String) :
      Ignores env (resolveWithin depth id nullable hint) := by
    induction depth generalizing id nullable hint with
    | zero => exact .throw
    | succ depth ih =>
      exact (resolveBare_ignores ih henv id hint).bind fun e => spellNullable_ignores nullable e
  refine Erases.graph.bind fun g => ?_
  simp only [Graph.size_bare]
  exact hwithin _ id nullable hint

lemma variants_ignores (choice : Choice) : Ignores env (variants choice) := by
  have hvariants (ids : List SchemaId) : Ignores env (resolveVariants ids) := by
    induction ids with
    | nil => exact .pure
    | cons id rest ih =>
      exact (resolve_ignores henv id false none).bind fun _ => ih.bind fun _ => .pure
  refine Erases.graph.bind fun g => ?_
  simp only [Graph.node_bare, Node.alternatives_bare]
  exact hvariants _

lemma declareChoice_erases (choice : Choice) :
    Erases env Declaration.bare (declareChoice choice) (declareChoice choice) := by
  refine (variants_ignores henv choice).bind fun found => Erases.graph.bind fun g => ?_
  have hdescription : choice.hasDescription g.bare = false := by
    simp [Choice.hasDescription, Node.bare]
  simp only [hdescription]
  exact .pure

lemma collectParts_ignores (parts : Parts) (ids : List SchemaId) :
    Ignores env (collectParts parts ids) := by
  induction ids generalizing parts with
  | nil => exact .pure
  | cons id rest ih =>
    refine Erases.graph.bind fun g => ?_
    simp only [Graph.isReference_bare, Graph.actualNode_bare, Node.properties_bare,
      Node.required_bare]
    split
    · exact (typeName_ignores henv id none).bind fun _ => ih _
    · exact ih _

lemma fieldType_ignores (discriminator : Option (Discriminator SchemaId)) (key : String)
    (id : SchemaId) : Ignores env (fieldType discriminator key id) := by
  unfold fieldType
  split
  · exact .pure
  · refine Erases.graph.bind fun g => dialect_ignores.bind fun dialect => ?_
    simp only [Graph.isActualNullable_bare]
    exact (resolve_ignores henv id _ (some key)).bind fun _ => .pure

lemma declareFields_erases (discriminator : Option (Discriminator SchemaId))
    (required : List String) (properties : List (String × SchemaId)) :
    Erases env (List.map Field.bare) (declareFields discriminator required properties)
      (declareFields discriminator required properties) := by
  induction properties with
  | nil => exact .pure
  | cons property rest ih =>
    obtain ⟨key, id⟩ := property
    have hfield : Erases env Field.bare (declareField discriminator required key id)
        (declareField discriminator required key id) := by
      refine (fieldType_ignores henv discriminator key id).bind fun type => ?_
      refine Erases.graph.bind fun g => ?_
      rw [Graph.node_bare]
      exact .pure
    exact hfield.bind fun _ => ih.bind fun _ => .pure

lemma declareInterface_erases (id : SchemaId) (name : String) :
    Erases env Declaration.bare (declareInterface id name) (declareInterface id name) := by
  refine Erases.graph.bind fun g => ?_
  simp only [Graph.node_bare, Node.required_bare, Node.allOf_bare, Node.properties_bare,
    Node.discriminator_bare, Node.additional_bare]
  refine (collectParts_ignores henv _ _).bind fun parts => ?_
  refine (declareFields_erases henv _ _ _).bind fun fields => ?_
  have hadded (properties : List (String × SchemaId))
      (discriminator : Option (Discriminator SchemaId)) :
      (addedField properties discriminator).map Field.bare =
        addedField properties discriminator := by
    unfold addedField
    split
    · split <;> rfl
    · rfl
  have hfields (properties : List (String × SchemaId))
      (discriminator : Option (Discriminator SchemaId)) :
      fields.map Field.bare ++ addedField properties discriminator =
        (fields ++ addedField properties discriminator).map Field.bare := by
    rw [List.map_append, hadded]
  rw [hfields]
  exact .pure

lemma declare_erases (id : SchemaId) (name : String) :
    Erases env Declaration.bare (declare id name) (declare id name) := by
  refine Erases.get.bind fun s => ?_
  simp only [Session.wrapped?_bare, Session.graph_bare, Graph.node_bare, Node.enumeration_bare,
    Node.isEnumeration_bare, Node.isArray_bare, Node.isDictionary_bare, Node.isAny_bare]
  split
  · exact declareChoice_erases henv _
  · split
    · exact declareChoice_erases henv _
    · split
      · exact .pure
      · split
        · have hspell := spellContainer_ignores (resolve_ignores henv) id
          exact (hspell.expansion id none).bind fun _ => .pure
        · split
          · exact .pure
          · exact declareInterface_erases henv id name

lemma declarationsWithin_erases (bound position : ℕ) :
    Erases env (List.map Declaration.bare) (declarationsWithin bound position)
      (declarationsWithin bound position) := by
  induction bound generalizing position with
  | zero => exact .throw
  | succ bound ih =>
    refine Erases.get.bind fun s => ?_
    simp only [Session.types_bare]
    split
    · exact .pure
    · exact (declare_erases henv _ _).bind fun _ => (ih _).bind fun _ => .pure

lemma declarations_erases : Erases env (List.map Declaration.bare) declarations declarations := by
  refine Erases.graph.bind fun g => ?_
  simp only [Graph.size_bare]
  exact declarationsWithin_erases henv _ 0

end

end SessionM

/-! What is left of a file without its comments. -/

lemma Declaration.rows_bare (d : Declaration) :
    d.bare.rows = d.rows.filter (!Row.isComment ·) := by
  have hcomments (indented : Bool) (description : Option String) :
      (commentRows indented description).filter (!Row.isComment ·) = [] := by
    cases description <;> rfl
  have hfields (fields : List Field) : (fields.map Field.bare).flatMap Field.rows =
      (fields.flatMap Field.rows).filter (!Row.isComment ·) := by
    rw [List.flatMap_map, List.filter_flatMap]
    refine List.flatMap_congr fun field _ => ?_
    rw [Field.rows, Field.rows, List.filter_append, hcomments]
    rfl
  have hshape : d.shape.bare.rows d.name =
      (d.shape.rows d.name).filter (!Row.isComment ·) := by
    cases d.shape with
    | interface parents fields indexed =>
      cases indexed <;> simp [Shape.bare, Shape.rows, hfields, Row.isComment]
    | union | enumeration | synonym => rfl
  rw [Declaration.rows, Declaration.rows, List.filter_append, List.filter_cons_of_pos rfl,
    hcomments, ← hshape]
  rfl

/-- The lines of a file that are no comments. -/
def uncommented (text : String) : List (List Char) :=
  (Text.splitLines text.toList).filter (!isCommentLine ·)

lemma uncommented_fileText {ds : List Declaration} (h : ∀ row ∈ fileRows ds, row.WellFormed)
    (exported : Bool) :
    uncommented (fileText exported ds) =
      headerLine :: (fileRows (ds.map Declaration.bare)).map (Row.chars (exportKeyword exported)) ++
        [[]] := by
  have hheader : isCommentLine headerLine = false := by decide
  have hrows : fileRows (ds.map Declaration.bare) = (fileRows ds).filter (!Row.isComment ·) := by
    rw [fileRows, fileRows, List.flatMap_map, List.filter_flatMap]
    exact List.flatMap_congr fun d _ => d.rows_bare
  rw [uncommented, splitLines_fileText h, List.filter_append,
    List.filter_cons_of_pos (by simp [hheader]), List.filter_map, hrows]
  simp only [Function.comp_def, Row.isCommentLine_chars]
  rfl

namespace Document

variable {env : Environment} (henv : env.generator.IgnoresAnnotations)

lemma root_bare (d : Document) : d.bare.root = d.root := rfl

lemma definitions_bare (d : Document) : d.bare.definitions = d.definitions := by
  simp [definitions, bare]

section

include henv

lemma register_erases (d : Document) :
    SessionM.Erases env (fun u => u) d.register d.bare.register := by
  rw [register, register, definitions_bare]
  refine (SessionM.register_ignores henv _).bind fun _ => ?_
  refine (SessionM.isDefinitionType_ignores _).bind fun isType => ?_
  refine SessionM.Erases.graph.bind fun g => ?_
  simp only [Graph.node_bare, Node.isAny_bare, root_bare]
  split
  · exact .reading (SessionM.typeName_ignores henv _ _).discard
  · exact .pure

lemma declare_erases (d : Document) :
    SessionM.Erases env (List.map Declaration.bare) d.declare d.bare.declare :=
  (register_erases henv d).bind fun _ => SessionM.declarations_erases henv

end

variable {d d' : Document}

lemma agree_of_erases {α : Type} {free : α → α} {action action' bare : SessionM α}
    (hd : d.bare = d'.bare) (h : SessionM.Erases env free action bare)
    (h' : SessionM.Erases env free action' bare) :
    ((action env { graph := d.graph }).1.map free =
        (action' env { graph := d'.graph }).1.map free) ∧
      (action env { graph := d.graph }).2.bare = (action' env { graph := d'.graph }).2.bare := by
  have hgraph : d.graph.bare = d'.graph.bare := congrArg Document.graph hd
  have hstart : Session.bare { graph := d.graph } = Session.bare { graph := d'.graph } := by
    simp only [Session.bare, hgraph]
  have heq := (h _).symm.trans ((congrArg (bare env) hstart).trans (h' _))
  exact ⟨congrArg Prod.fst heq, congrArg Prod.snd heq⟩

end Document

/-- A file but for its comments: its path and its other lines. -/
def GeneratedFile.code (file : GeneratedFile) : String × List (List Char) :=
  (file.path, uncommented file.content)

namespace Document

section

variable {env : Environment} (henv : env.generator.IgnoresAnnotations) {d d' : Document}

include henv

lemma register_agrees (hd : d.bare = d'.bare) :
    (d.register env { graph := d.graph }).1 = (d'.register env { graph := d'.graph }).1 ∧
      (d.register env { graph := d.graph }).2.bare =
        (d'.register env { graph := d'.graph }).2.bare := by
  obtain ⟨hresult, hsession⟩ :=
    agree_of_erases hd (register_erases henv d) (hd ▸ register_erases henv d')
  have hid (x : Except Failure Unit) : x.map (fun u => u) = x := by cases x <;> rfl
  rw [hid, hid] at hresult
  exact ⟨hresult, hsession⟩

lemma emit_agrees (hd : d.bare = d'.bare) :
    (d.emit env { graph := d.graph }).1.map (List.map GeneratedFile.code) =
        (d'.emit env { graph := d'.graph }).1.map (List.map GeneratedFile.code) ∧
      (d.emit env { graph := d.graph }).2.bare = (d'.emit env { graph := d'.graph }).2.bare := by
  obtain ⟨hresult, hsession⟩ :=
    agree_of_erases hd (declare_erases henv d) (hd ▸ declare_erases henv d')
  rcases hdeclare : d.declare env { graph := d.graph } with ⟨e | ds, t⟩ <;>
    rcases hdeclare' : d'.declare env { graph := d'.graph } with ⟨e' | ds', t'⟩ <;>
    rw [hdeclare, hdeclare'] at hresult hsession
  case error.error =>
    rw [emit_of_declare_error hdeclare, emit_of_declare_error hdeclare']
    cases hresult
    exact ⟨rfl, hsession⟩
  case ok.ok =>
    have hbare : ds.map Declaration.bare = ds'.map Declaration.bare := Except.ok.inj hresult
    rw [emit_of_declare hdeclare, emit_of_declare hdeclare']
    refine ⟨?_, hsession⟩
    change Except.ok [("types.ts", uncommented _)] = Except.ok [("types.ts", uncommented _)]
    rw [uncommented_fileText (declared_rows_wellFormed hdeclare),
      uncommented_fileText (declared_rows_wellFormed hdeclare'), hbare]
  all_goals cases hresult

end

/-- Two documents that differ in annotations only, at any depth, fail to load alike or load alike.
They register the same types in the same order with the same remappings, leave the same graph but
for its annotations, and lead to files that differ in their comments only. -/
theorem annotations_inert (root root' : Keywords Schema) (settings : Settings)
    (h : root.unannotated = root'.unannotated) :
    (∃ e, ofKeywords root = .error e ∧ ofKeywords root' = .error e) ∨
      ∃ d d', ofKeywords root = .ok d ∧ ofKeywords root' = .ok d' ∧ d.bare = d'.bare ∧
        (d.run settings d.register).1 = (d'.run settings d'.register).1 ∧
        (d.run settings d.register).2.bare = (d'.run settings d'.register).2.bare ∧
        (d.run settings d.emit).1.map (List.map GeneratedFile.code) =
          (d'.run settings d'.emit).1.map (List.map GeneratedFile.code) ∧
        (d.run settings d.emit).2.bare = (d'.run settings d'.emit).2.bare := by
  have henv : (Environment.ofSettings settings).generator.IgnoresAnnotations :=
    Naming.default_ignoresAnnotations _
  have hload : (ofKeywords root).map bare = (ofKeywords root').map bare := by
    rw [← ofKeywords_unannotated, ← ofKeywords_unannotated, h]
  rcases hroot : ofKeywords root with e | d <;> rcases hroot' : ofKeywords root' with e' | d' <;>
    rw [hroot, hroot'] at hload
  case error.error =>
    cases hload
    exact .inl ⟨e, rfl, rfl⟩
  case ok.ok =>
    have hd : d.bare = d'.bare := Except.ok.inj hload
    obtain ⟨hresult, hregistered⟩ := register_agrees henv hd
    obtain ⟨hfiles, hemitted⟩ := emit_agrees henv hd
    exact .inr ⟨d, d', rfl, rfl, hd, hresult, hregistered, hfiles, hemitted⟩
  all_goals cases hload

/-- Two documents with a string property of an object, with other remarks on each of them. -/
def remarks : Keywords Schema × Keywords Schema where
  fst := {
    types := some (.single .object)
    description := some "Pets"
    properties := [("name", .inline {
      types := some (.single .string)
      format := some "uuid"
      extra := [("x-order", .null), ("x-nullable", .bool true)] })] }
  snd := {
    types := some (.single .object)
    properties := [("name", .inline {
      types := some (.single .string)
      description := some "*/"
      extra := [("x-nullable", .bool true)] })]
    extra := [("x-owner", .string "cat")] }

theorem remarks_inert :
    (∃ e, ofKeywords remarks.1 = .error e ∧ ofKeywords remarks.2 = .error e) ∨
      ∃ d d', ofKeywords remarks.1 = .ok d ∧ ofKeywords remarks.2 = .ok d' ∧ d.bare = d'.bare ∧
        (d.run {} d.register).1 = (d'.run {} d'.register).1 ∧
        (d.run {} d.register).2.bare = (d'.run {} d'.register).2.bare ∧
        (d.run {} d.emit).1.map (List.map GeneratedFile.code) =
          (d'.run {} d'.emit).1.map (List.map GeneratedFile.code) ∧
        (d.run {} d.emit).2.bare = (d'.run {} d'.emit).2.bare :=
  annotations_inert remarks.1 remarks.2 {} rfl

end Document

end SchemaTypes
