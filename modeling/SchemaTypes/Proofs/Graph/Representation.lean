import SchemaTypes.Proofs.Entries
import SchemaTypes.Proofs.Except
import SchemaTypes.Proofs.Graph.Pointers
import SchemaTypes.Proofs.Schema.Positions

/-! What it means that a node represents a schema of a document, given the numbers of the
document's positions, and what the scope of the document says about these numbers. -/

namespace SchemaTypes

def Place.definitionName? : Place → Option String
  | definition _ name => some name
  | _ => none

namespace Keywords

variable {α : Type} (k : Keywords α)

/-- The positions of a document: the root, the definitions, and then all others. -/
def positions (root : Keywords Schema) : List Path :=
  ([] :: (Schema.inline root).declared []) ++ (Schema.inline root).placed []

def number (root : Keywords Schema) (path : Path) : SchemaId := root.positions.idxOf path

def numberedDefinitions (number : Place → SchemaId) : List (String × SchemaId) :=
  k.sections.flatMap fun (group, entries) =>
    entries.map fun (name, _) => (name, number (.definition group name))

/-- A text that starts as a pointer denotes the root or a definition by its path. -/
def Points (root : Keywords Schema) (target : String) (id : SchemaId) : Prop :=
  ∃ path t, target.toList.head? = some '#' ∧
    Path.text path = Pointer.dropTrailingSlashes target ∧
    (Schema.inline root).At path t ∧ (path = [] ∨ path.isDefinition) ∧ id = root.number path

/-- Another text denotes the first definition of the root with that name. -/
def Denotes (root : Keywords Schema) (target : String) (id : SchemaId) : Prop :=
  if target.toList.head? = some '#' then root.Points target id
  else (root.numberedDefinitions fun place => root.number [place]).lookup target = some id

end Keywords

namespace Discriminator

/-- Without a mapping in the document each reference among the alternatives is mapped by the last
segment of its pointer. -/
def MapsAlternatives (root : Keywords Schema) (alternatives : List (Option Schema))
    (mapping : List (String × SchemaId)) : Prop :=
  ∃ entries, mapping = Entries.ofList entries ∧
    List.Forall₂ (fun target entry =>
        entry.1 = Pointer.unescape (Pointer.lastSegment target) ∧ root.Points target entry.2)
      (alternatives.filterMap fun
        | some (.ref target) => some target
        | _ => none)
      entries

def Represents (root : Keywords Schema) (alternatives : List (Option Schema)) :
    Option DiscriminatorForm → Option (Discriminator SchemaId) → Prop
  | none, d => d = none
  | some (.name property), d => d = some ⟨property, []⟩
  | some (.object ⟨property, []⟩), d =>
    ∃ mapping, d = some ⟨property, mapping⟩ ∧ MapsAlternatives root alternatives mapping
  | some (.object ⟨property, targets⟩), d =>
    ∃ mapping, d = some ⟨property, mapping⟩ ∧
      List.Forall₂ (fun target entry => entry.1 = target.1 ∧ root.Denotes target.2 entry.2)
        targets mapping

end Discriminator

namespace Node

/-- The node holds what the keywords say; `number` numbers the places below. -/
structure HoldsKeywords (root : Keywords Schema) (number : Place → SchemaId)
    (k : Keywords Schema) (node : Node) : Prop where
  reference : node.reference = none
  types : node.types = (k.types.map TypeSet.toList).getD []
  format : node.format = k.format
  title : node.title = k.title
  description : node.description = k.description
  nullable : node.nullable = k.nullable
  xNullable : node.xNullable = k.xNullable
  required : node.required = k.required
  closed : node.closed = true ↔ k.additional = some (.allowed false)
  enumeration : node.enumeration = k.enumeration.map .literal
  extensions : node.extensions = k.extra.filter fun entry => isExtension entry.1
  properties : node.properties = k.properties.map fun entry => (entry.1, number (.property entry.1))
  patterns : node.patterns = k.patterns.map fun entry => (entry.1, number (.pattern entry.1))
  additional : node.additional = k.additionalSchema.map fun _ => number .additional
  dictionaryKey : node.dictionaryKey = k.dictionaryKey.map fun _ => number .dictionaryKey
  items : node.items = k.items.map fun
    | .each _ => .each (number .items)
    | .tuple schemas => .tuple ((List.range schemas.length).map fun i => number (.item i))
  allOf : node.allOf = (List.range k.allOf.length).map fun i => number (.allOf i)
  anyOf : node.anyOf = (List.range k.anyOf.length).map fun i => number (.anyOf i)
  oneOf : node.oneOf = k.oneOf.zipIdx.map fun (entry, i) => entry.map fun _ => number (.oneOf i)
  definitions_sublist : node.definitions.Sublist (k.numberedDefinitions number)
  definitions_keys : (node.definitions.map (·.1)).Nodup
  definitions_first : ∀ name,
    node.definitions.lookup name = (k.numberedDefinitions number).lookup name
  discriminator : Discriminator.Represents root k.oneOf k.discriminator node.discriminator

/-- The node represents the schema at the path. A reference holds nothing but its target. -/
def Represents (root : Keywords Schema) (path : Path) (isProperty : Bool) :
    Schema → Node → Prop
  | .ref target, node =>
    ∃ id, root.Points target id ∧ node = { reference := some id, isProperty }
  | .inline k, node =>
    node.HoldsKeywords root (fun place => root.number (path ++ [place])) k ∧
      node.isProperty = isProperty

end Node

/-- The graph has exactly one node for each position of the document, and it represents the schema
at that position. -/
structure Document.Represents (root : Keywords Schema) (d : Document) : Prop where
  root_eq : d.root = 0
  number_root : root.number [] = 0
  number_lt : ∀ path t, (Schema.inline root).At path t → root.number path < d.graph.size
  number_inj : ∀ path t path' t', (Schema.inline root).At path t →
    (Schema.inline root).At path' t' → root.number path = root.number path' → path = path'
  number_surj : ∀ id < d.graph.size,
    ∃ path t, (Schema.inline root).At path t ∧ root.number path = id
  node : ∀ path t, (Schema.inline root).At path t →
    Node.Represents root path path.isProperty t (d.graph.node (root.number path))

namespace Scope

variable {root : Keywords Schema}

lemma lookup_zipIdx {paths : List Path} {path : Path} (h : path ∈ paths) (start : ℕ) :
    ((paths.zipIdx start).map fun (path, id) => (Path.text path, id)).lookup (Path.text path) =
      some (start + paths.idxOf path) := by
  induction paths generalizing start with
  | nil => cases h
  | cons first rest ih =>
    rw [List.zipIdx_cons, List.map_cons, List.lookup_cons]
    by_cases heq : path = first
    · subst heq
      simp
    · have hne : (Path.text path == Path.text first) = false :=
        beq_false_of_ne fun htext => heq (Path.text_injective htext)
      rw [hne, ih (List.mem_of_ne_of_mem heq h), List.idxOf_cons_ne rest (Ne.symm heq)]
      exact congrArg some (by omega)

lemma lookup_pointers {path : Path} (h : path ∈ [] :: (Schema.inline root).declared []) :
    (ofKeywords root).pointers.lookup (Path.text path) = some (root.number path) := by
  rw [Keywords.number, Keywords.positions, List.idxOf_append_of_mem h]
  exact (lookup_zipIdx h 0).trans (congrArg some (Nat.zero_add _))

lemma of_lookup_pointers {pointer : String} {id : SchemaId}
    (h : (ofKeywords root).pointers.lookup pointer = some id) :
    ∃ path ∈ [] :: (Schema.inline root).declared [],
      Path.text path = pointer ∧ id = root.number path := by
  obtain ⟨before, after, heq, _⟩ := List.lookup_eq_some_iff.mp h
  have hmem : (pointer, id) ∈ (ofKeywords root).pointers := heq ▸ by simp
  obtain ⟨⟨path, i⟩, hpath, hentry⟩ := List.mem_map.mp hmem
  cases hentry
  have hdeclared := List.fst_mem_of_mem_zipIdx hpath
  rw [lookup_pointers hdeclared] at h
  exact ⟨path, hdeclared, rfl, (Option.some.inj h).symm⟩

lemma points_of_resolve {target : String} {id : SchemaId}
    (h : (ofKeywords root).resolve target = .ok id) : root.Points target id := by
  rw [resolve] at h
  split at h
  case isTrue => cases h
  case isFalse hhead =>
    split at h
    case h_2 => cases h
    case h_1 id' hlookup =>
      cases h
      obtain ⟨path, hpath, htext, rfl⟩ := of_lookup_pointers hlookup
      have hstart : target.toList.head? = some '#' := by simpa using hhead
      rcases List.mem_cons.mp hpath with rfl | hpath
      · exact ⟨[], .inline root, hstart, htext, .here _, .inl rfl, rfl⟩
      · obtain ⟨_, t, rfl, hat, _, hdef⟩ := Schema.declared_at hpath
        exact ⟨path, t, hstart, htext, hat, .inr hdef, rfl⟩

lemma definition_declared {place : Place} {s : Schema} (h : (place, s) ∈ root.definitionPlaces) :
    [place] ∈ (Schema.inline root).declared [] := by
  obtain ⟨group, _, name, _, _, rfl⟩ := Keywords.mem_definitionPlaces h
  rw [Schema.declared_inline]
  refine List.mem_flatMap.mpr ⟨(.definition group name, s), ?_, List.mem_cons_self⟩
  simp only [Keywords.children, List.mem_append]
  tauto

lemma rootNames_eq :
    (ofKeywords root).rootNames = root.numberedDefinitions fun place => root.number [place] := by
  have hnames : (ofKeywords root).rootNames = root.definitionPlaces.filterMap fun child =>
      child.1.definitionName?.map fun name => (name, root.number [child.1]) := by
    refine List.filterMap_congr ?_
    rintro ⟨place, s⟩ hmem
    cases place with
    | definition group name =>
      have hlookup := lookup_pointers (List.mem_cons_of_mem _ (definition_declared hmem))
      exact congrArg (Option.map fun id => (name, id)) hlookup
    | _ => rfl
  rw [hnames]
  simp [Keywords.definitionPlaces, Keywords.numberedDefinitions, Keywords.sections,
    List.filterMap_append, List.filterMap_map, Place.definitionName?]

lemma denotes_of_resolveMapped {target : String} {id : SchemaId}
    (h : (ofKeywords root).resolveMapped target = .ok id) : root.Denotes target id := by
  rw [resolveMapped] at h
  rw [Keywords.Denotes]
  split at h
  case isTrue hhead =>
    rw [if_pos hhead]
    exact points_of_resolve h
  case isFalse hhead =>
    rw [if_neg hhead]
    split at h
    case h_1 id' hlookup =>
      cases h
      rwa [rootNames_eq] at hlookup
    case h_2 => cases h

lemma mapping_of_explicit {targets : List (String × String)} {mapping : List (String × SchemaId)}
    (h : (ofKeywords root).explicitMapping targets = .ok mapping) :
    List.Forall₂ (fun target entry => entry.1 = target.1 ∧ root.Denotes target.2 entry.2)
      targets mapping := by
  refine (Except.forall₂_of_mapM h).imp ?_
  rintro ⟨value, target⟩ entry hentry
  obtain ⟨id, hid, heq⟩ := Except.bind_eq_ok hentry
  cases heq
  exact ⟨rfl, denotes_of_resolveMapped hid⟩

lemma mapping_of_implicit {alternatives : List (Option Schema)}
    {mapping : List (String × SchemaId)}
    (h : (ofKeywords root).implicitMapping alternatives = .ok mapping) :
    Discriminator.MapsAlternatives root alternatives mapping := by
  suffices ∀ start, alternatives.foldlM (fun mapping alternative =>
      match alternative with
      | some (.ref target) => do
        let id ← (ofKeywords root).resolve target
        return Entries.put (Pointer.unescape (Pointer.lastSegment target)) id mapping
      | _ => return mapping) start = .ok mapping →
      ∃ entries, mapping = Entries.putAll start entries ∧
        List.Forall₂ (fun target entry =>
            entry.1 = Pointer.unescape (Pointer.lastSegment target) ∧ root.Points target entry.2)
          (alternatives.filterMap fun
            | some (.ref target) => some target
            | _ => none)
          entries from this [] h
  clear h
  intro start h
  induction alternatives generalizing start with
  | nil =>
    cases h
    exact ⟨[], rfl, .nil⟩
  | cons alternative rest ih =>
    rw [List.foldlM_cons] at h
    obtain ⟨next, hnext, h⟩ := Except.bind_eq_ok h
    obtain ⟨entries, hmapping, hentries⟩ := ih next h
    rcases alternative with _ | target | k
    · cases hnext
      exact ⟨entries, hmapping, hentries⟩
    · obtain ⟨id, hid, heq⟩ := Except.bind_eq_ok hnext
      cases heq
      exact ⟨(_, id) :: entries, hmapping, .cons ⟨rfl, points_of_resolve hid⟩ hentries⟩
    · cases hnext
      exact ⟨entries, hmapping, hentries⟩

lemma represents_of_lowerDiscriminator {alternatives : List (Option Schema)}
    {form : Option DiscriminatorForm} {d : Option (Discriminator SchemaId)}
    (h : (ofKeywords root).lowerDiscriminator alternatives form = .ok d) :
    Discriminator.Represents root alternatives form d := by
  rcases form with _ | property | ⟨property, targets⟩
  · cases h
    rfl
  · cases h
    rfl
  · rw [lowerDiscriminator] at h
    cases targets with
    | nil =>
      obtain ⟨mapping, hmapping, heq⟩ := Except.bind_eq_ok h
      cases heq
      exact ⟨mapping, rfl, mapping_of_implicit hmapping⟩
    | cons target targets =>
      obtain ⟨mapping, hmapping, heq⟩ := Except.bind_eq_ok h
      cases heq
      exact ⟨mapping, rfl, mapping_of_explicit hmapping⟩

end Scope

namespace Node

variable {root : Keywords Schema}

lemma holdsKeywords_ofKeywords {k : Keywords Schema} {d : Option (Discriminator SchemaId)}
    (number : Place → SchemaId) (isProperty : Bool)
    (h : Discriminator.Represents root k.oneOf k.discriminator d) :
    (ofKeywords (k.relabel number) d isProperty).HoldsKeywords root number k := by
  have hlist {α : Type} (place : ℕ → Place) (as : List α) :
      (as.zipIdx.map fun item => number (place item.2)) =
        (List.range as.length).map fun i => number (place i) := by
    rw [List.range_eq_range', ← List.zipIdx_map_snd 0 as, List.map_map]
    rfl
  have hdefinitions :
      (k.relabel number).sections.flatMap (·.2) = k.numberedDefinitions number := by
    cases hcomponents : k.components <;>
      simp [Keywords.sections, Keywords.numberedDefinitions, Keywords.relabel, hcomponents]
  have hnil : (([] : List (String × SchemaId)).map (·.1)).Nodup := List.nodup_nil
  obtain ⟨hkeys, hsub, hlookup⟩ := Entries.putNew_spec hnil (k.numberedDefinitions number)
  have hnode : (ofKeywords (k.relabel number) d isProperty).definitions =
      Entries.putNew [] (k.numberedDefinitions number) := by
    rw [← hdefinitions]
    rfl
  constructor
  case closed =>
    rcases hadditional : k.additional with _ | flag | _ <;>
      simp [ofKeywords, Keywords.relabel, hadditional, Additional.map]
  case additional =>
    rcases hadditional : k.additional with _ | flag | _ <;>
      simp [ofKeywords, Keywords.relabel, Keywords.additionalSchema, hadditional, Additional.map]
  case items =>
    rcases hitems : k.items with _ | _ | schemas <;>
      simp [ofKeywords, Keywords.relabel, hitems, hlist]
  case allOf => exact hlist .allOf k.allOf
  case anyOf => exact hlist .anyOf k.anyOf
  case definitions_sublist => rwa [hnode]
  case definitions_keys => rwa [hnode]
  case definitions_first => rwa [hnode]
  case discriminator => exact h
  all_goals rfl

end Node

end SchemaTypes
