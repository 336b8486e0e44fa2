import SchemaTypes.Proofs.Graph.Following
import SchemaTypes.Proofs.TypeScript.Literals
import SchemaTypes.Proofs.TypeScript.Unions

/-! What an interface has from the members of `allOf`. The properties of the members in place are
merged with those of the schema, and the references among the members are extended. The members of
a member are not looked at. -/

namespace SchemaTypes

open Session

namespace Graph

variable {g : Graph} {id : SchemaId}

/-- The second schema is a member in place of the `allOf` of the first one. -/
def InlinePart (g : Graph) (id part : SchemaId) : Prop :=
  part ∈ (g.node id).allOf ∧ g.isReference part = false

/-- The schema and, to any depth, the members in place of its `allOf`. -/
def composed (g : Graph) (id : SchemaId) : Set SchemaId :=
  {part | Relation.ReflTransGen g.InlinePart id part}

/-- The members in place of its own `allOf`, and then the schema. -/
def merged (g : Graph) (id : SchemaId) : List SchemaId :=
  (g.node id).allOf.filter (!g.isReference ·) ++ [id]

/-- What the merged schemas declare; a later one replaces the property of an earlier one. -/
def mergedProperties (g : Graph) (id : SchemaId) : List (String × SchemaId) :=
  Entries.ofList ((g.merged id).flatMap fun part => (g.node part).properties)

lemma mem_composed_of_merged {part : SchemaId} (h : part ∈ g.merged id) : part ∈ g.composed id := by
  rcases List.mem_append.mp h with h | h
  · obtain ⟨hpart, hinline⟩ := List.mem_filter.mp h
    exact .single ⟨hpart, by simpa using hinline⟩
  · rw [List.mem_singleton.mp h]
    exact .refl

lemma self_mem_composed (g : Graph) (id : SchemaId) : id ∈ g.composed id := .refl

lemma mem_keys_mergedProperties {key : String} :
    key ∈ (g.mergedProperties id).map (·.1) ↔
      ∃ part ∈ g.merged id, key ∈ (g.node part).properties.map (·.1) := by
  rw [mergedProperties, Entries.mem_keys_ofList, List.map_flatMap, List.mem_flatMap]

/-- The target of the reference has this name. -/
def Named (g : Graph) (s : Session) (part : SchemaId) (name : String) : Prop :=
  ∃ target, g.RefersTo part target ∧ s.nameOf? target = some name

/-- An interface has these members merged: each of their properties has one field, and apart from
the labelled one there are no other fields. The parents are what the references among the parts of
the owners lead to. -/
structure Merges (g : Graph) (s : Session) (label : Option String) (members owners : Set SchemaId)
    (parents : List String) (fields : List Field) : Prop where
  keys_nodup : (fields.map (·.key)).Nodup
  labelled : ∀ key ∈ label, ∃ field ∈ fields, field.key = key
  field : ∀ member ∈ members, ∀ property ∈ (g.node member).properties,
    ∃ field ∈ fields, field.key = property.1
  key : ∀ field ∈ fields, label ≠ some field.key →
    ∃ member ∈ members, field.key ∈ (g.node member).properties.map (·.1)
  optional : ∀ field ∈ fields, label ≠ some field.key →
    (field.isOptional ↔ ∀ member ∈ members, field.key ∉ (g.node member).required)
  extended : ∀ owner ∈ owners, ∀ part ∈ (g.node owner).allOf, g.isReference part →
    ∃ name ∈ parents, g.Named s part name
  parent : ∀ name ∈ parents, ∃ owner ∈ owners, ∃ part ∈ (g.node owner).allOf,
    g.isReference part ∧ g.Named s part name

/-- Members of members add nothing: what they declare and require, and what they refer to, is there
without them. -/
structure Covers (g : Graph) (label : Option String) (id : SchemaId) : Prop where
  property : ∀ member ∈ g.composed id, ∀ key ∈ (g.node member).properties.map (·.1),
    label ≠ some key → ∃ part ∈ g.merged id, key ∈ (g.node part).properties.map (·.1)
  required : ∀ member ∈ g.composed id, ∀ key ∈ (g.node member).required, label ≠ some key →
    key ∈ (g.mergedProperties id).map (·.1) → ∃ part ∈ g.merged id, key ∈ (g.node part).required
  reference : ∀ owner ∈ g.composed id, ∀ part ∈ (g.node owner).allOf, g.isReference part →
    ∃ other ∈ (g.node id).allOf, g.isReference other ∧
      ∃ target, g.RefersTo part target ∧ g.RefersTo other target

variable {env : Environment} {s t : Session} {label : Option String}
  {members owners : Set SchemaId} {parents : List String} {fields : List Field}

lemma Named.later {part : SchemaId} {name : String} (h : g.Named s part name)
    (hrun : Run env s t) : g.Named t part name := by
  obtain ⟨target, htarget, hname⟩ := h
  exact ⟨target, htarget, hrun.nameOf? hname⟩

lemma Merges.later (h : g.Merges s label members owners parents fields) (hrun : Run env s t) :
    g.Merges t label members owners parents fields := by
  refine ⟨h.keys_nodup, h.labelled, h.field, h.key, h.optional, ?_, ?_⟩
  · intro owner howner part hpart href
    obtain ⟨name, hmem, hname⟩ := h.extended owner howner part hpart href
    exact ⟨name, hmem, hname.later hrun⟩
  · intro name hmem
    obtain ⟨owner, howner, part, hpart, href, hname⟩ := h.parent name hmem
    exact ⟨owner, howner, part, hpart, href, hname.later hrun⟩

lemma Merges.label_old (h : g.Merges s none members owners parents fields)
    (hlabel : ∀ key ∈ label, ∃ field ∈ fields, field.key = key) :
    g.Merges s label members owners parents fields :=
  ⟨h.keys_nodup, hlabel, h.field, fun field hfield _ => h.key field hfield nofun,
    fun field hfield _ => h.optional field hfield nofun, h.extended, h.parent⟩

lemma Merges.label_new (h : g.Merges s none members owners parents fields) {added : Field}
    (hlabel : label = some added.key) (hnew : added.key ∉ fields.map (·.key)) :
    g.Merges s label members owners parents (fields ++ [added]) := by
  have hold {field : Field} (hmem : field ∈ fields ++ [added])
      (hne : label ≠ some field.key) : field ∈ fields := by
    refine (List.mem_append.mp hmem).resolve_right fun h => hne ?_
    rw [List.mem_singleton.mp h, hlabel]
  refine ⟨?_, ?_, ?_, ?_, ?_, h.extended, h.parent⟩
  · rw [List.map_append]
    exact h.keys_nodup.append (List.nodup_singleton _) (by simpa using hnew)
  · intro key hkey
    rw [hlabel] at hkey
    exact ⟨added, by simp, Option.some.inj hkey⟩
  · intro member hmember property hproperty
    obtain ⟨field, hfield, heq⟩ := h.field member hmember property hproperty
    exact ⟨field, List.mem_append_left _ hfield, heq⟩
  · exact fun field hfield hne => h.key field (hold hfield hne) nofun
  · exact fun field hfield hne => h.optional field (hold hfield hne) nofun

section

variable (h : g.Merges s label {part | part ∈ g.merged id} {id} parents fields)

include h

/-- Where the members of any depth are merged they add nothing to the direct ones. -/
lemma Merges.covers (hnames : s.NamesApart)
    (hcomposed : g.Merges s label (g.composed id) (g.composed id) parents fields) :
    g.Covers label id := by
  constructor
  case property =>
    intro member hmember key hmem hlabel
    obtain ⟨property, hproperty, rfl⟩ := List.mem_map.mp hmem
    obtain ⟨field, hfield, heq⟩ := hcomposed.field member hmember property hproperty
    rw [← heq] at hlabel ⊢
    exact h.key field hfield hlabel
  case required =>
    intro member hmember key hmem hlabel hdeclared
    obtain ⟨part, hpart, hdeclared⟩ := mem_keys_mergedProperties.mp hdeclared
    obtain ⟨property, hproperty, rfl⟩ := List.mem_map.mp hdeclared
    obtain ⟨field, hfield, heq⟩ := h.field part hpart property hproperty
    rw [← heq] at hlabel hmem ⊢
    have hrequired : ¬ field.isOptional := fun hoptional =>
      (hcomposed.optional field hfield hlabel).mp hoptional member hmember hmem
    rw [h.optional field hfield hlabel] at hrequired
    push Not at hrequired
    exact hrequired
  case reference =>
    intro owner howner part hpart href
    obtain ⟨name, hname, target, htarget, hnamed⟩ :=
      hcomposed.extended owner howner part hpart href
    obtain ⟨_, rfl, other, hother, href', target', htarget', hnamed'⟩ := h.parent name hname
    obtain rfl := hnames.nameOf?_inj hnamed hnamed'
    exact ⟨other, hother, href', target, htarget, htarget'⟩

/-- Where the members of any depth add nothing they are merged with the direct ones. -/
lemma Merges.composed (hcovers : g.Covers label id) :
    g.Merges s label (g.composed id) (g.composed id) parents fields := by
  constructor
  case keys_nodup => exact h.keys_nodup
  case labelled => exact h.labelled
  case field =>
    intro member hmember property hproperty
    by_cases hlabel : label = some property.1
    · exact h.labelled _ hlabel
    · obtain ⟨part, hpart, hmem⟩ :=
        hcovers.property member hmember _ (List.mem_map_of_mem hproperty) hlabel
      obtain ⟨other, hother, heq⟩ := List.mem_map.mp hmem
      rw [← heq]
      exact h.field part hpart other hother
  case key =>
    intro field hfield hlabel
    obtain ⟨part, hpart, hmem⟩ := h.key field hfield hlabel
    exact ⟨part, mem_composed_of_merged hpart, hmem⟩
  case optional =>
    intro field hfield hlabel
    have hkey : field.key ∈ (g.mergedProperties id).map (·.1) :=
      mem_keys_mergedProperties.mpr (h.key field hfield hlabel)
    rw [h.optional field hfield hlabel]
    refine ⟨fun hnone member hmember hmem => ?_,
      fun hnone part hpart => hnone part (mem_composed_of_merged hpart)⟩
    obtain ⟨part, hpart, hrequired⟩ := hcovers.required member hmember _ hmem hlabel hkey
    exact hnone part hpart hrequired
  case extended =>
    intro owner howner part hpart href
    obtain ⟨other, hother, href', target, htarget, htarget'⟩ :=
      hcovers.reference owner howner part hpart href
    obtain ⟨name, hname, named, hnamed, hsome⟩ := h.extended id rfl other hother href'
    exact ⟨name, hname, named, htarget.of_shared htarget' hnamed, hsome⟩
  case parent =>
    intro name hname
    obtain ⟨_, rfl, hparent⟩ := h.parent name hname
    exact ⟨_, self_mem_composed g _, hparent⟩

lemma Merges.composed_iff (hnames : s.NamesApart) :
    g.Merges s label (g.composed id) (g.composed id) parents fields ↔ g.Covers label id :=
  ⟨h.covers hnames, h.composed⟩

end

/-- Members without members of their own add nothing. -/
lemma covers_of_flat (hflat : ∀ part, g.InlinePart id part → (g.node part).allOf = []) :
    g.Covers label id := by
  have hmem {part : SchemaId} (h : part ∈ g.composed id) :
      part ∈ g.merged id ∧ (part = id ∨ (g.node part).allOf = []) := by
    induction h with
    | refl => exact ⟨List.mem_append_right _ List.mem_cons_self, .inl rfl⟩
    | @tail owner part _ hpart ih =>
      rcases ih.2 with rfl | hnil
      · refine ⟨List.mem_append_left _ (List.mem_filter.mpr ⟨hpart.1, ?_⟩), .inr (hflat part hpart)⟩
        simp [hpart.2]
      · rw [InlinePart, hnil] at hpart
        exact absurd hpart.1 List.not_mem_nil
  refine ⟨fun member h key hkey _ => ⟨member, (hmem h).1, hkey⟩,
    fun member h key hkey _ _ => ⟨member, (hmem h).1, hkey⟩, ?_⟩
  intro owner howner part hpart href
  rcases (hmem howner).2 with rfl | hnil
  · exact ⟨part, hpart, href, _, (Grows.refl g).refersTo_actual le_rfl part,
      (Grows.refl g).refersTo_actual le_rfl part⟩
  · rw [hnil] at hpart
    exact absurd hpart List.not_mem_nil

end Graph

/-- The property for which an interface of the schema has the literals of its discriminator. -/
def Session.label? (s : Session) (id : SchemaId) : Option String :=
  ((s.graph.node id).discriminator.filter (!·.mapping.isEmpty)).map (·.property)

namespace SessionM

variable {env : Environment} {s t : Session} {g : Graph} {id : SchemaId}

section

variable (hone : ∀ id, (g.node id).reference.isSome → (g.node id).oneOf = [])
  (hrun : Run env { graph := g } s)

include hone hrun

lemma typeName_reference {part : SchemaId} (href : g.isReference part) :
    Leads env s (typeName part none) fun name t => g.Named t part name := by
  refine (typeName_leads part none).mono fun name t _ hname => ?_
  rw [Graph.carrier_of_oneOf (by rw [(hrun.grows part).oneOf, hone part href])] at hname
  exact ⟨_, hrun.grows.refersTo_actual hrun.size_le part, hname⟩

/-- What is collected from the members: the names of the references, and what the others have. -/
lemma collectParts_collects (ids : List SchemaId) (parts : Parts) :
    Leads env s (collectParts parts ids) fun found t =>
      found.properties = Entries.putAll parts.properties
        ((ids.filter (!g.isReference ·)).flatMap fun part => (g.node part).properties) ∧
      found.required = parts.required ++
        (ids.filter (!g.isReference ·)).flatMap (fun part => (g.node part).required) ∧
      ∃ names, found.parents = parts.parents ++ names ∧
        List.Forall₂ (g.Named t) (ids.filter g.isReference) names := by
  induction ids generalizing s parts with
  | nil => exact .pure ⟨rfl, by simp, [], by simp⟩
  | cons id rest ih =>
    have hreference : s.graph.isReference id = g.isReference id := by
      rw [Graph.isReference, (hrun.grows id).reference, Graph.isReference]
    refine .look graph_apply ?_
    simp only [hreference]
    cases href : g.isReference id with
    | true =>
      simp only [if_true, List.filter_cons, href, Bool.not_true, Bool.false_eq_true, if_false]
      refine (typeName_reference hone hrun href).bind fun name t hrun' hname => ?_
      refine (ih (hrun.trans hrun') _).mono fun found u hlater hfound => ?_
      obtain ⟨hproperties, hrequired, names, hparents, hnames⟩ := hfound
      exact ⟨hproperties, hrequired, name :: names, by simp [hparents],
        .cons (hname.later hlater) hnames⟩
    | false =>
      have hnone : (s.graph.node id).reference = none := by
        simpa [Graph.isReference] using hreference.trans href
      have hnode : s.graph.actualNode id = s.graph.node id := by
        rw [Graph.actualNode, Graph.actual_of_reference hnone]
      simp only [Bool.false_eq_true, if_false, List.filter_cons, href, Bool.not_false, if_true,
        List.flatMap_cons, hnode]
      refine (ih hrun _).mono fun found u _ hfound => ?_
      obtain ⟨hproperties, hrequired, hnames⟩ := hfound
      refine ⟨?_, ?_, hnames⟩
      · rw [hproperties, Entries.putAll_append, (hrun.grows id).properties]
      · rw [hrequired, List.append_assoc, (hrun.grows id).required]

end

lemma declareFields_rows (discriminator : Option (Discriminator SchemaId))
    (required : List String) (properties : List (String × SchemaId)) :
    Leads env s (declareFields discriminator required properties) fun fields _ =>
      fields.map (fun field => (field.key, field.isOptional)) =
        properties.map fun property => (property.1, !required.contains property.1) := by
  induction properties generalizing s with
  | nil => exact .pure rfl
  | cons property rest ih =>
    obtain ⟨key, id⟩ := property
    have hfield : Leads env s (declareField discriminator required key id) fun field _ =>
        (field.key, field.isOptional) = (key, !required.contains key) :=
      (fieldType_leads discriminator key id).bind fun _ _ _ _ => .look graph_apply (.pure rfl)
    refine hfield.bind fun field t _ hfield => ih.bind fun fields u _ hfields => .pure ?_
    rw [List.map_cons, List.map_cons, hfield, hfields]

lemma keys_of_rows {required : List String} {properties : List (String × SchemaId)}
    {fields : List Field} (hrows : fields.map (fun field => (field.key, field.isOptional)) =
      properties.map fun property => (property.1, !required.contains property.1)) :
    fields.map (·.key) = properties.map (·.1) := by
  simpa only [List.map_map, Function.comp_def] using congrArg (List.map Prod.fst) hrows

lemma merges_of_rows {required names : List String} {fields : List Field}
    (hrows : fields.map (fun field => (field.key, field.isOptional)) =
      (g.mergedProperties id).map fun property => (property.1, !required.contains property.1))
    (hrequired : ∀ key, key ∈ required ↔ ∃ part ∈ g.merged id, key ∈ (g.node part).required)
    (hnames : List.Forall₂ (g.Named t) ((g.node id).allOf.filter g.isReference) names) :
    g.Merges t none {part | part ∈ g.merged id} {id} names fields := by
  have hkeys := keys_of_rows hrows
  refine ⟨?_, nofun, ?_, ?_, ?_, ?_, ?_⟩
  · rw [hkeys]
    exact Entries.ofList_keys_nodup _
  · intro part hpart property hproperty
    rw [← List.mem_map, hkeys, Graph.mem_keys_mergedProperties]
    exact ⟨part, hpart, List.mem_map_of_mem hproperty⟩
  · intro field hfield _
    have hkey : field.key ∈ fields.map (·.key) := List.mem_map_of_mem hfield
    rwa [hkeys, Graph.mem_keys_mergedProperties] at hkey
  · intro field hfield _
    have hrow : (field.key, field.isOptional) ∈
        fields.map fun field => (field.key, field.isOptional) := List.mem_map_of_mem hfield
    rw [hrows] at hrow
    obtain ⟨property, _, heq⟩ := List.mem_map.mp hrow
    obtain ⟨hkey, hflag⟩ := Prod.mk.inj heq
    rw [← hflag, hkey, Bool.not_eq_true', List.contains_eq_mem, decide_eq_false_iff_not, hrequired]
    push Not
    rfl
  · rintro _ rfl part hpart href
    exact Except.exists_of_forall₂_left hnames (List.mem_filter.mpr ⟨hpart, href⟩)
  · intro name hname
    obtain ⟨part, hpart, hnamed⟩ := Except.exists_of_forall₂_right hnames hname
    obtain ⟨hpart, href⟩ := List.mem_filter.mp hpart
    exact ⟨id, rfl, part, hpart, href, hnamed⟩

lemma merges_addedField {members owners : Set SchemaId} {parents : List String}
    {fields : List Field} (h : g.Merges t none members owners parents fields)
    {properties : List (String × SchemaId)}
    (hkeys : fields.map (·.key) = properties.map (·.1))
    (discriminator : Option (Discriminator SchemaId)) :
    g.Merges t (discriminator.map (·.property)) members owners parents
      (fields ++ addedField properties discriminator) := by
  cases discriminator with
  | none =>
    rw [addedField, List.append_nil]
    exact h
  | some d =>
    rw [addedField]
    split
    case isTrue hhas =>
      rw [Entries.has_iff, ← hkeys] at hhas
      rw [List.append_nil]
      refine h.label_old ?_
      rintro _ ⟨⟩
      exact List.mem_map.mp hhas
    case isFalse hhas =>
      rw [Entries.has_iff, ← hkeys] at hhas
      exact h.label_new rfl hhas

lemma declareInterface_merges
    (hone : ∀ id, (g.node id).reference.isSome → (g.node id).oneOf = [])
    (hrun : Run env { graph := g } s) (hparts : (s.graph.node id).allOf = (g.node id).allOf)
    (name : String) :
    Leads env s (declareInterface id name) fun decl t => ∃ parents fields indexed,
      decl.shape = .interface parents fields indexed ∧
        g.Merges t (s.label? id) {part | part ∈ g.merged id} {id} parents fields := by
  refine .look graph_apply ?_
  refine (collectParts_collects hone hrun _ _).bind fun found t _ hfound => ?_
  obtain ⟨hproperties, hrequired, names, hparents, hnames⟩ := hfound
  rw [hparts] at hproperties hrequired hnames
  have hmerged : Entries.putAll found.properties (s.graph.node id).properties =
      g.mergedProperties id := by
    rw [hproperties, (hrun.grows id).properties, ← Entries.putAll_append, Graph.mergedProperties,
      Graph.merged, List.flatMap_append, List.flatMap_singleton, Entries.ofList]
  have hmem (key : String) : key ∈ found.required ↔
      ∃ part ∈ g.merged id, key ∈ (g.node part).required := by
    rw [hrequired, (hrun.grows id).required, ← List.mem_flatMap, Graph.merged,
      List.flatMap_append, List.flatMap_singleton, List.mem_append, List.mem_append]
    exact or_comm
  rw [hmerged]
  refine (declareFields_rows _ _ _).bind fun fields u hlater hrows => .pure ?_
  have hmerges : g.Merges u none {part | part ∈ g.merged id} {id} names fields :=
    merges_of_rows hrows hmem (hnames.imp fun _ _ h => h.later hlater)
  refine ⟨_, _, _, rfl, ?_⟩
  rw [hparents, List.nil_append]
  exact merges_addedField hmerges (keys_of_rows hrows) _

lemma declare_interface {name : String} {decl : Declaration} {parents : List String}
    {fields : List Field} {indexed : Bool} (h : declare id name env s = (.ok decl, t))
    (hshape : decl.shape = .interface parents fields indexed) :
    s.wrapped? id = none ∧ (s.graph.node id).isAny = false ∧
      declareInterface id name env s = (.ok decl, t) := by
  have hno {choice : Choice} (h : declareChoice choice env s = (.ok decl, t)) : False := by
    obtain ⟨_, _, hunion⟩ := declareChoice_shape h
    rw [hshape] at hunion
    cases hunion
  cases hwrapped : s.wrapped? id with
  | some base =>
    rw [declare_choice name (.inl hwrapped)] at h
    exact (hno h).elim
  | none =>
    rw [declare, bind_ok get_apply] at h
    simp only [hwrapped] at h
    split at h
    · exact (hno h).elim
    · split at h
      · cases h
        cases hshape
      · split at h
        · obtain ⟨_, _, _, hpure⟩ := bind_eq_ok h
          cases hpure
          cases hshape
        · split at h
          · cases h
            cases hshape
          · rename_i hany
            exact ⟨rfl, by simpa using hany, h⟩

lemma declare_interface_lt (hextends : Extends g s) {name : String} {decl : Declaration}
    {parents : List String} {fields : List Field} {indexed : Bool}
    (h : declare id name env s = (.ok decl, t))
    (hshape : decl.shape = .interface parents fields indexed) : id < g.size := by
  obtain ⟨hwrapped, hany, _⟩ := declare_interface h hshape
  by_contra hge
  by_cases hlt : id < s.graph.size
  · have hmem : id ∈ s.wrappers.map (·.2) := by
      rw [hextends.numbers, List.mem_range'_1, ← hextends.size]
      exact ⟨Nat.le_of_not_lt hge, hlt⟩
    obtain ⟨entry, hentry, rfl⟩ := List.mem_map.mp hmem
    rw [hextends.wrapped?_eq_some.mpr hentry] at hwrapped
    cases hwrapped
  · rw [Graph.node_of_size_le (Nat.le_of_not_lt hlt)] at hany
    cases hany

end SessionM

namespace Document

open SessionM

variable {text : String} {d : Document} {env : Environment} {s : Session}

/-- An interface has the members in place of its own `allOf` merged and the references there
extended. It has those of any depth exactly if they add nothing. -/
theorem interface_merges (hload : ofJson text = .ok d ∨ ofYaml text = .ok d)
    {files : List GeneratedFile} (hemit : d.emit env { graph := d.graph } = (.ok files, s)) :
    ∃ ds, files = [⟨"types.ts", fileText env.typescript.exported ds⟩] ∧
      List.Forall₂ (fun entry decl => decl.name = entry.2 ∧
        ∃ u v, Run env (d.registered env) u ∧
          SessionM.declare entry.1 entry.2 env u = (.ok decl, v) ∧ Run env v s ∧
          ∀ parents fields indexed, decl.shape = .interface parents fields indexed →
            d.graph.Merges s (u.label? entry.1) {part | part ∈ d.graph.merged entry.1} {entry.1}
              parents fields ∧
            (d.graph.Merges s (u.label? entry.1) (d.graph.composed entry.1)
                (d.graph.composed entry.1) parents fields ↔
              d.graph.Covers (u.label? entry.1) entry.1))
        s.types ds := by
  obtain ⟨root, hrepresents⟩ := represents_of_load hload
  obtain ⟨_, ds, hfiles, hdeclared⟩ := d.emit_between.result hemit
  refine ⟨ds, hfiles, hdeclared.imp fun entry decl hdecl => ?_⟩
  obtain ⟨u, v, hu, hdeclare, hv⟩ := hdecl
  refine ⟨((declare_declares entry.1 entry.2).result hdeclare).2.1, u, v, hu, hdeclare, hv,
    fun parents fields indexed hshape => ?_⟩
  have hrun : Run env { graph := d.graph } u := d.register_leads.1.trans hu
  have hlt := declare_interface_lt (hrun.extends (.start hrepresents.closed)) hdeclare hshape
  obtain ⟨_, _, hinterface⟩ := declare_interface hdeclare hshape
  obtain ⟨huv, _, _, _, hshape', hmerges⟩ :=
    (declareInterface_merges (oneOf_of_reference hload) hrun (hrun.parts_kept hlt) _).result
      hinterface
  rw [hshape] at hshape'
  cases hshape'
  have hmerges := hmerges.later hv
  have hwhole : Run env { graph := d.graph } s := (hrun.trans huv).trans hv
  have hnames : s.NamesApart := hwhole.namesApart (.start d.graph)
  exact ⟨hmerges, hmerges.composed_iff hnames⟩

/-- The root has one member in place and a reference as the other. -/
def memberText : String :=
  "\x7b\"$defs\":\x7b\"B\":\x7b\"type\":\"object\"," ++
    "\"properties\":\x7b\"b\":\x7b\x7d\x7d\x7d\x7d," ++
    "\"allOf\":[\x7b\"properties\":\x7b\"a\":\x7b\"type\":\"string\"\x7d\x7d," ++
    "\"required\":[\"a\"]\x7d,\x7b\"$ref\":\"#/$defs/B\"\x7d]," ++
    "\"properties\":\x7b\"c\":\x7b\x7d\x7d\x7d"

def memberFile : String :=
  "// Generated by jstr. Do not edit.\n\nexport interface B \x7b\n  b?: any;\n\x7d\n\n" ++
    "export interface Root extends B \x7b\n  a: string;\n  c?: any;\n\x7d\n"

lemma member_emits :
    ∃ d, ofJson memberText = .ok d ∧
      (∃ files, (d.emit (.ofSettings {}) { graph := d.graph }).1 = .ok files ∧
        files.map (·.content) = [memberFile]) ∧
      ∀ id < d.graph.size, ∀ part ∈ (d.graph.node id).allOf, (d.graph.node part).allOf = [] := by
  decide +kernel

theorem member_merged :
    ∃ d files s, ofJson memberText = .ok d ∧
      d.emit (.ofSettings {}) { graph := d.graph } = (.ok files, s) ∧
      files.map (·.content) = [memberFile] ∧
      ∃ ds, files = [⟨"types.ts", fileText true ds⟩] ∧
        List.Forall₂ (fun entry decl => ∀ parents fields indexed,
          decl.shape = .interface parents fields indexed → ∃ label,
            d.graph.Merges s label (d.graph.composed entry.1) (d.graph.composed entry.1)
              parents fields) s.types ds := by
  obtain ⟨d, hload, ⟨files, hfiles, hcontent⟩, hflat⟩ := member_emits
  refine ⟨d, files, _, hload, Prod.ext hfiles rfl, hcontent, ?_⟩
  obtain ⟨ds, hds, hdeclared⟩ := interface_merges (.inl hload) (Prod.ext hfiles rfl)
  refine ⟨ds, hds, hdeclared.imp fun entry decl hdecl parents fields indexed hshape => ?_⟩
  obtain ⟨_, u, v, _, _, _, hmerges⟩ := hdecl
  refine ⟨u.label? entry.1, (hmerges parents fields indexed hshape).2.mpr ?_⟩
  refine Graph.covers_of_flat fun part hpart => ?_
  by_cases hlt : entry.1 < d.graph.size
  · exact hflat entry.1 hlt part hpart.1
  · rw [Graph.InlinePart, Graph.node_of_size_le (Nat.le_of_not_lt hlt)] at hpart
    exact absurd hpart.1 List.not_mem_nil

/-- The same members, inside a member of the root. -/
def memberOfMemberText : String :=
  "\x7b\"$defs\":\x7b\"B\":\x7b\"type\":\"object\"," ++
    "\"properties\":\x7b\"b\":\x7b\x7d\x7d\x7d\x7d," ++
    "\"allOf\":[\x7b\"allOf\":[\x7b\"properties\":\x7b\"a\":\x7b\"type\":\"string\"\x7d\x7d," ++
    "\"required\":[\"a\"]\x7d,\x7b\"$ref\":\"#/$defs/B\"\x7d]\x7d]\x7d"

lemma memberOfMember_emits :
    ∃ d, ofJson memberOfMemberText = .ok d ∧
      6 ∈ (d.graph.node 0).allOf ∧ 4 ∈ (d.graph.node 6).allOf ∧
      d.graph.isReference 6 = false ∧ d.graph.isReference 4 = false ∧
      ("a", 3) ∈ (d.graph.node 4).properties ∧
      (d.emit (.ofSettings {}) { graph := d.graph }).2.nameOf? 0 = some "Root" ∧
      ∃ files, (d.emit (.ofSettings {}) { graph := d.graph }).1 = .ok files ∧
        files.map (·.content) = [fileText true [
          ⟨"B", none, .interface [] [⟨"b", true, .expr .any, none⟩] false⟩,
          ⟨"Root", none, .interface [] [] false⟩]] := by
  decide +kernel

/-- Neither the field nor the parent comes into the interface of the root. -/
theorem memberOfMember_not_merged :
    ∃ d, ofJson memberOfMemberText = .ok d ∧
      let s := (d.emit (.ofSettings {}) { graph := d.graph }).2
      s.nameOf? 0 = some "Root" ∧
      (∃ files, (d.emit (.ofSettings {}) { graph := d.graph }).1 = .ok files ∧
        files.map (·.content) = [fileText true [
          ⟨"B", none, .interface [] [⟨"b", true, .expr .any, none⟩] false⟩,
          ⟨"Root", none, .interface [] [] false⟩]]) ∧
      ∀ label, ¬ d.graph.Merges s label (d.graph.composed 0) (d.graph.composed 0) [] [] := by
  obtain ⟨d, hload, houter, hinner, hinline, hinline', hproperty, hname, hfiles⟩ :=
    memberOfMember_emits
  refine ⟨d, hload, hname, hfiles, fun label hmerges => ?_⟩
  have hmember : 4 ∈ d.graph.composed 0 :=
    (Relation.ReflTransGen.single ⟨houter, hinline⟩).tail ⟨hinner, hinline'⟩
  obtain ⟨field, hfield, _⟩ := hmerges.field 4 hmember _ hproperty
  exact absurd hfield List.not_mem_nil

end Document

end SchemaTypes
