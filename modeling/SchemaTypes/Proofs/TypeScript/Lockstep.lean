import SchemaTypes.Proofs.Session.Calls
import SchemaTypes.Proofs.Session.Lockstep

/-! Usages and declarations in two sessions side by side. Which way the work goes is decided by
comparing expressions, and two expressions of the one session are equal exactly if those of the
other one are. -/

namespace SchemaTypes

open TypeExpr

namespace Session.Renamed

variable {s t : Session} {e e' : TypeExpr}

lemma ident {name name' : String} (h : Renamed s t name name') :
    Renamed s t (TypeExpr.ident name) (TypeExpr.ident name') := by
  obtain ⟨hover, rfl⟩ := h
  exact ⟨over_name hover, rfl⟩

lemma keyword (h : s.Mirrors t) {name : String} (hname : name ∈ keywords) :
    Renamed s t (TypeExpr.ident name) (TypeExpr.ident name) :=
  ⟨over_keyword hname, congrArg TypeExpr.ident (h.keyword name hname).symm⟩

lemma array (h : Renamed s t e e') : Renamed s t (TypeExpr.array e) (TypeExpr.array e') := by
  obtain ⟨hover, rfl⟩ := h
  exact ⟨over_array hover, rfl⟩

lemma dictionary {key key' value value' : TypeExpr} (hkey : Renamed s t key key')
    (hvalue : Renamed s t value value') :
    Renamed s t (TypeExpr.dictionary key value) (TypeExpr.dictionary key' value') := by
  obtain ⟨hover, rfl⟩ := hkey
  obtain ⟨hover', rfl⟩ := hvalue
  exact ⟨over_dictionary hover hover', rfl⟩

lemma tuple {es es' : List TypeExpr} (h : Renamed s t es es') :
    Renamed s t (TypeExpr.tuple es) (TypeExpr.tuple es') := by
  obtain ⟨hover, rfl⟩ := h
  exact ⟨over_tuple hover, congrArg TypeExpr.tuple (renameAll_eq _ es).symm⟩

lemma join {es es' : List TypeExpr} (h : Renamed s t es es') :
    Renamed s t (TypeExpr.join es) (TypeExpr.join es') := by
  obtain ⟨hover, rfl⟩ := h
  exact ⟨over_join hover, join_rename _ es⟩

lemma getD {e? e?' : Option TypeExpr} (h : Renamed s t e? e?') (he : Renamed s t e e') :
    Renamed s t (e?.getD e) (e?'.getD e') := by
  obtain ⟨hover, rfl⟩ := h
  cases e? with
  | none => exact he
  | some found => exact ⟨hover found rfl, rfl⟩

/-- Under the names of the second session the same expressions are equal. -/
lemma eq_iff (hmirrors : s.Mirrors t) {other other' : TypeExpr} (h : Renamed s t e e')
    (hother : Renamed s t other other') : e' = other' ↔ e = other := by
  obtain ⟨hover, rfl⟩ := h
  obtain ⟨hover', rfl⟩ := hother
  exact rename_inj hmirrors.injective hover hover'

lemma mem_iff (hmirrors : s.Mirrors t) {es es' : List TypeExpr} (h : Renamed s t e e')
    (hs : Renamed s t es es') : e' ∈ es' ↔ e ∈ es := by
  obtain ⟨hovers, rfl⟩ := hs
  constructor
  · intro hmem
    obtain ⟨other, hother, heq⟩ := List.mem_map.mp hmem
    have hsame := (h.eq_iff hmirrors ⟨hovers other hother, rfl⟩).mp heq.symm
    exact hsame ▸ hother
  · intro hmem
    rw [h.2]
    exact List.mem_map_of_mem hmem

lemma addDistinct (hmirrors : s.Mirrors t) {found found' : List TypeExpr} (h : Renamed s t e e')
    (hfound : Renamed s t found found') :
    Renamed s t (if found.contains e then found else found ++ [e])
      (if found'.contains e' then found' else found' ++ [e']) := by
  have hcontains : found'.contains e' = found.contains e := by
    rw [Bool.eq_iff_iff, List.contains_iff_mem, List.contains_iff_mem, h.mem_iff hmirrors hfound]
  rw [hcontains]
  split
  · exact hfound
  · exact hfound.append (h.cons .nil)

lemma union {es es' : List TypeExpr} (h : Renamed s t es es') :
    Renamed s t (Shape.union es) (Shape.union es') := by
  obtain ⟨hover, rfl⟩ := h
  exact ⟨⟨List.nil_subset _, hover⟩, rfl⟩

lemma synonym (h : Renamed s t e e') : Renamed s t (Shape.synonym e) (Shape.synonym e') := by
  obtain ⟨hover, rfl⟩ := h
  refine ⟨⟨List.nil_subset _, fun other hother => ?_⟩, rfl⟩
  rw [List.mem_singleton.mp hother]
  exact hover

lemma enumeration (values : List Json) :
    Renamed s t (Shape.enumeration values) (Shape.enumeration values) :=
  ⟨⟨List.nil_subset _, by simp [Shape.exprs]⟩, rfl⟩

lemma interface {parents parents' : List String} {fields fields' : List Field}
    (h : Renamed s t parents parents') (hfields : Renamed s t fields fields') (indexed : Bool) :
    Renamed s t (Shape.interface parents fields indexed)
      (Shape.interface parents' fields' indexed) := by
  obtain ⟨hover, rfl⟩ := h
  obtain ⟨hover', rfl⟩ := hfields
  exact ⟨Shape.over_interface.mpr ⟨hover, hover'⟩, rfl⟩

lemma addedField (properties : List (String × SchemaId))
    (discriminator : Option (Discriminator SchemaId)) :
    Renamed s t (SessionM.addedField properties discriminator)
      (SessionM.addedField properties discriminator) := by
  refine ⟨SessionM.addedField_over properties discriminator, ?_⟩
  unfold SessionM.addedField
  split
  · split
    · rfl
    · rfl
  · rfl

lemma declaration {name name' : String} {shape shape' : Shape} {description : Option String}
    (h : Renamed s t name name') (hshape : Renamed s t shape shape') :
    Renamed s t (Declaration.mk name description shape)
      (Declaration.mk name' description shape') := by
  obtain ⟨hover, rfl⟩ := h
  obtain ⟨hover', rfl⟩ := hshape
  exact ⟨⟨hover, hover'⟩, rfl⟩

end Session.Renamed

namespace Session.Mirrors

variable {s t : Session} (h : s.Mirrors t) {position : ℕ}

include h

lemma types_eq_none (hnone : s.types[position]? = none) : t.types[position]? = none := by
  rw [List.getElem?_eq_none_iff] at hnone ⊢
  have hlength := congrArg List.length h.schemas
  rw [List.length_map, List.length_map] at hlength
  rwa [hlength]

lemma types_eq_some {id : SchemaId} {name : String}
    (hentry : s.types[position]? = some (id, name)) :
    ∃ name', t.types[position]? = some (id, name') ∧ Renamed s t name name' := by
  have hmap := congrArg (·[position]?) h.schemas
  simp only [List.getElem?_map, hentry, Option.map_some] at hmap
  obtain ⟨⟨id', name'⟩, hentry', heq⟩ := Option.map_eq_some_iff.mp hmap
  obtain rfl : id' = id := heq
  have hnodup : (t.types.map (·.1)).Nodup := h.schemas ▸ h.apart.schemas_nodup
  have hname : s.nameOf? id' = some name :=
    Entries.lookup_of_mem h.apart.schemas_nodup (List.mem_of_getElem? hentry)
  have hname' : t.nameOf? id' = some name' :=
    Entries.lookup_of_mem hnodup (List.mem_of_getElem? hentry')
  exact ⟨name', hentry', .name h.apart hname hname'⟩

end Session.Mirrors

open Session SessionM

namespace Bond

variable {env env' : Environment} {s t : Session} {b : Bond env env'}

lemma typeName_spelled (id : SchemaId) (hint : Option String) (hR : b.related s t) :
    b.Returns s t (typeName id hint >>= fun name => pure (TypeExpr.ident name))
      (typeName id hint >>= fun name => pure (TypeExpr.ident name)) :=
  (typeName_returns id hint hR).bind fun _ _ _ _ _ _ hR h => .pure hR h.ident

lemma keyword {name : String} (hR : b.related s t) (h : name ∈ keywords) :
    b.Returns s t (pure (TypeExpr.ident name)) (pure (TypeExpr.ident name)) :=
  .pure hR (.keyword (b.mirrors hR) h)

lemma spellNullable_returns {e e' : TypeExpr} (nullable : Bool) (hR : b.related s t)
    (h : Renamed s t e e') :
    b.Returns s t (spellNullable nullable e) (spellNullable nullable e') := by
  have hmirrors := b.mirrors hR
  have hkeyword : env.typescript.nullKeyword.name ∈ keywords := by
    cases env.typescript.nullKeyword <;> decide
  have hnull : Renamed s t (nullKeyword env.typescript.nullKeyword)
      (nullKeyword env.typescript.nullKeyword) := .keyword hmirrors hkeyword
  have hany : Renamed s t any any := .keyword hmirrors (by decide)
  refine .look read_apply read_apply ?_
  simp only [b.typescript, Bool.or_eq_true, beq_iff_eq, h.eq_iff hmirrors hany,
    h.eq_iff hmirrors hnull]
  split
  · exact .pure hR h
  · exact .pure hR (.join (h.cons (hnull.cons .nil)))

section

variable {resolve : Resolver} (hresolve : ∀ id nullable hint s t, b.related s t →
  b.Returns s t (resolve id nullable hint) (resolve id nullable hint))

include hresolve

lemma resolveMember_returns (id : SchemaId) (hR : b.related s t) :
    b.Returns s t (resolveMember resolve id) (resolveMember resolve id) :=
  graph hR (dialect (hresolve id _ none s t hR))

lemma resolveMembers_returns (ids : List SchemaId) (hR : b.related s t) :
    b.Returns s t (resolveMembers resolve ids) (resolveMembers resolve ids) := by
  induction ids generalizing s t with
  | nil => exact .pure hR .nil
  | cons id rest ih =>
    refine (resolveMember_returns hresolve id hR).bind fun e e' s' t' _ _ hR' he => ?_
    refine (ih hR').bind fun es es' u v hs ht hR'' hes => .pure hR'' ?_
    exact (he.run (b.mirrors hR') (b.mirrors hR'') hs ht).cons hes

lemma resolveDistinct_returns {found found' : List TypeExpr} (usages : List (SchemaId × Bool))
    (hR : b.related s t) (hfound : Renamed s t found found') :
    b.Returns s t (resolveDistinct resolve found usages)
      (resolveDistinct resolve found' usages) := by
  induction usages generalizing s t found found' with
  | nil => exact .pure hR hfound
  | cons usage rest ih =>
    obtain ⟨id, nullable⟩ := usage
    refine (hresolve id nullable none s t hR).bind fun e e' s' t' hs ht hR' he => ih hR' ?_
    exact he.addDistinct (b.mirrors hR') (hfound.run (b.mirrors hR) (b.mirrors hR') hs ht)

lemma dictionaryValue_returns (id : SchemaId) (hR : b.related s t) :
    b.Returns s t (dictionaryValue resolve id) (dictionaryValue resolve id) := by
  refine graph hR ?_
  simp only
  split
  · refine (resolveMember_returns hresolve _ hR).bind fun e e' s' t' _ _ hR' he => ?_
    exact .pure hR' he.some
  · split
    · refine dialect ?_
      refine (resolveDistinct_returns hresolve _ hR .nil).bind fun es es' s' t' _ _ hR' hes => ?_
      obtain ⟨hover, rfl⟩ := hes
      rcases es with _ | ⟨e, _ | ⟨other, rest⟩⟩
      · exact .pure hR' .none
      · have he : Renamed s' t' e (e.rename (s'.translate t')) :=
          ⟨hover e List.mem_cons_self, rfl⟩
        exact .pure hR' he.some
      · exact .pure hR' .none
    · exact .pure hR .none

lemma dictionaryKey_returns (id : SchemaId) (hR : b.related s t) :
    b.Returns s t (dictionaryKey resolve id) (dictionaryKey resolve id) := by
  refine graph hR ?_
  split
  · refine (resolveMember_returns hresolve _ hR).bind fun e e' s' t' _ _ hR' he => ?_
    exact .pure hR' he.some
  · exact .pure hR .none

lemma spellContainer_returns (id : SchemaId) (hR : b.related s t) :
    b.Returns s t (spellContainer resolve id) (spellContainer resolve id) := by
  refine graph hR ?_
  simp only
  split
  · split
    · refine (resolveMembers_returns hresolve _ hR).bind fun es es' s' t' _ _ hR' hes => ?_
      exact .pure hR' hes.tuple
    · refine (resolveMember_returns hresolve _ hR).bind fun e e' s' t' _ _ hR' he => ?_
      exact .pure hR' he.array
    · exact .pure hR (.array (.keyword (b.mirrors hR) (by decide)))
  · refine (dictionaryKey_returns hresolve id hR).bind fun key key' s' t' _ _ hR' hkey => ?_
    refine (dictionaryValue_returns hresolve id hR').bind
      fun value value' u v hs ht hR'' hvalue => .pure hR'' ?_
    have hmirrors := b.mirrors hR''
    have hkey' := hkey.run (b.mirrors hR') hmirrors hs ht
    exact (hkey'.getD (.keyword hmirrors (by decide))).dictionary
      (hvalue.getD (.keyword hmirrors (by decide)))

lemma resolveAlternatives_returns {found found' : List TypeExpr}
    (alternatives : List (Option SchemaId)) (hR : b.related s t)
    (hfound : Renamed s t found found') :
    b.Returns s t (resolveAlternatives resolve found alternatives)
      (resolveAlternatives resolve found' alternatives) := by
  induction alternatives generalizing s t found found' with
  | nil => exact .pure hR hfound
  | cons alternative rest ih =>
    have hnext : ∀ e e' s' t', Run env s s' → Run env' t t' → b.related s' t' →
        Renamed s' t' e e' → b.Returns s' t'
          (resolveAlternatives resolve (if found.contains e then found else found ++ [e]) rest)
          (resolveAlternatives resolve
            (if found'.contains e' then found' else found' ++ [e']) rest) :=
      fun e e' s' t' hs ht hR' he => ih hR' (he.addDistinct (b.mirrors hR')
        (hfound.run (b.mirrors hR) (b.mirrors hR') hs ht))
    cases alternative with
    | some id => exact (hresolve id false none s t hR).bind hnext
    | none => exact InStep.bind (keyword hR (by decide)) hnext

lemma spellUnion_returns (alternatives : List (Option SchemaId)) (hR : b.related s t) :
    b.Returns s t (spellUnion resolve alternatives) (spellUnion resolve alternatives) :=
  (resolveAlternatives_returns hresolve alternatives hR .nil).bind
    fun _ _ _ _ _ _ hR' hes => .pure hR' hes.join

lemma resolveContainer_returns (id : SchemaId) (hint : Option String) (hR : b.related s t) :
    b.Returns s t (resolveContainer resolve id hint) (resolveContainer resolve id hint) := by
  have hmirrors := b.mirrors hR
  refine .look get_apply get_apply ?_
  rw [hmirrors.expanding, hmirrors.graph]
  cases hname : s.nameOf? id with
  | some name =>
    obtain ⟨name', hname', _⟩ := hmirrors.exists_nameOf? hname
    rw [hname']
    exact .pure hR (.ident (.name hmirrors.apart hname hname'))
  | none =>
    rw [hmirrors.nameOf?_eq_none.mpr hname]
    split
    case h_1 heq => cases heq
    case h_2 outer _ _ => exact typeName_spelled id _ hR
    case h_3 =>
      refine InStep.bind (Q := fun e e' s t => Renamed s t e e') ?_
        fun e e' s' t' _ _ hR' he => .look get_apply get_apply ?_
      · exact .within (.beginExpansion id hint) (.beginExpansion id hint)
          (fun _ => .endExpansion id) (fun _ => .endExpansion id) (fun _ _ => b.endExpansion id)
          (spellContainer_returns hresolve id (b.beginExpansion id hint hR)) fun _ _ _ _ h => h
      · have hmirrors' := b.mirrors hR'
        cases hname' : s'.nameOf? id with
        | some name =>
          obtain ⟨name', hname'', _⟩ := hmirrors'.exists_nameOf? hname'
          rw [hname'']
          exact .pure hR' (.ident (.name hmirrors'.apart hname' hname''))
        | none =>
          rw [hmirrors'.nameOf?_eq_none.mpr hname']
          exact .pure hR' he

lemma resolvePlain_returns (node : Node) (hR : b.related s t) :
    b.Returns s t (resolvePlain resolve node) (resolvePlain resolve node) := by
  cases node.plain with
  | keyword _ h =>
    obtain ⟨name, hname, heq⟩ := node.keyword_eq_ident
    rw [h, heq]
    exact keyword hR hname
  | union alternatives _ _ _ h =>
    rw [h]
    exact spellUnion_returns hresolve alternatives hR

lemma resolveBare_returns (id : SchemaId) (hint : Option String) (hR : b.related s t) :
    b.Returns s t (resolveBare resolve id hint) (resolveBare resolve id hint) := by
  have hmirrors := b.mirrors hR
  refine .look get_apply get_apply (.look read_apply read_apply ?_)
  simp only [hmirrors.graph, b.resolver, Session.wrapper?, hmirrors.wrappers]
  split
  · exact typeName_spelled _ hint hR
  · split
    · exact keyword hR (by decide)
    · split
      · exact typeName_spelled id hint hR
      · split
        · exact resolveContainer_returns hresolve _ hint hR
        · exact resolvePlain_returns hresolve _ hR

end

lemma resolveWithin_returns (depth : ℕ) (id : SchemaId) (nullable : Bool) (hint : Option String)
    (hR : b.related s t) :
    b.Returns s t (resolveWithin depth id nullable hint)
      (resolveWithin depth id nullable hint) := by
  induction depth generalizing id nullable hint s t with
  | zero => exact .throw hR b.exhausted
  | succ depth ih =>
    have hbare := resolveBare_returns
      (fun id nullable hint _ _ hR => ih id nullable hint hR) id hint hR
    exact hbare.bind fun e e' s' t' _ _ hR' he => spellNullable_returns nullable hR' he

lemma resolve_returns (id : SchemaId) (nullable : Bool) (hint : Option String)
    (hR : b.related s t) :
    b.Returns s t (SessionM.resolve id nullable hint) (SessionM.resolve id nullable hint) :=
  graph hR (resolveWithin_returns _ id nullable hint hR)

lemma aliasTarget_returns (id : SchemaId) (hR : b.related s t) :
    b.Returns s t (aliasTarget id) (aliasTarget id) :=
  .within (.beginExpansion id none) (.beginExpansion id none)
    (fun _ => .endExpansion id) (fun _ => .endExpansion id) (fun _ _ => b.endExpansion id)
    (spellContainer_returns (fun id nullable hint _ _ hR => resolve_returns id nullable hint hR) id
      (b.beginExpansion id none hR))
    fun _ _ _ _ h => h

lemma resolveVariants_returns (ids : List SchemaId) (hR : b.related s t) :
    b.Returns s t (resolveVariants ids) (resolveVariants ids) := by
  induction ids generalizing s t with
  | nil => exact .pure hR .nil
  | cons id rest ih =>
    refine (resolve_returns id false none hR).bind fun e e' s' t' _ _ hR' he => ?_
    refine (ih hR').bind fun es es' u v hs ht hR'' hes => .pure hR'' ?_
    exact (he.run (b.mirrors hR') (b.mirrors hR'') hs ht).cons hes

lemma variants_returns {choice choice' : Choice} (hschema : choice'.schema = choice.schema)
    (hR : b.related s t) : b.Returns s t (variants choice) (variants choice') := by
  refine graph hR ?_
  rw [hschema]
  exact resolveVariants_returns _ hR

lemma declareChoice_returns {name name' : String} (schema : SchemaId) (hR : b.related s t)
    (hname : Renamed s t name name') :
    b.Returns s t (declareChoice ⟨name, schema⟩) (declareChoice ⟨name', schema⟩) := by
  refine (variants_returns rfl hR).bind fun found found' s' t' hs ht hR' hfound => graph hR' ?_
  have hmirrors := b.mirrors hR'
  have hvariants : Renamed s' t' (if found.isEmpty then [never] else found)
      (if found'.isEmpty then [never] else found') := by
    have hempty : found'.isEmpty = found.isEmpty := by
      rw [hfound.2]
      exact List.isEmpty_map
    rw [hempty]
    split
    · exact Renamed.cons (.keyword hmirrors (by decide)) .nil
    · exact hfound
  exact .pure hR' ((hname.run (b.mirrors hR) hmirrors hs ht).declaration hvariants.union)

lemma collectParts_returns {parts parts' : Parts} (ids : List SchemaId) (hR : b.related s t)
    (h : Renamed s t parts parts') :
    b.Returns s t (collectParts parts ids) (collectParts parts' ids) := by
  induction ids generalizing s t parts parts' with
  | nil => exact .pure hR h
  | cons id rest ih =>
    refine graph hR ?_
    split
    · refine (typeName_returns id none hR).bind fun name name' s' t' hs ht hR' hname => ih hR' ?_
      obtain ⟨hover, rfl⟩ := h.run (b.mirrors hR) (b.mirrors hR') hs ht
      have hparents := Renamed.append (α := String) ⟨hover, rfl⟩ (hname.cons .nil)
      exact ⟨hparents.1, congrArg (fun parents => { parts with parents }) hparents.2⟩
    · obtain ⟨hover, rfl⟩ := h
      exact ih hR ⟨hover, rfl⟩

lemma fieldType_returns (discriminator : Option (Discriminator SchemaId)) (key : String)
    (id : SchemaId) (hR : b.related s t) :
    b.Returns s t (fieldType discriminator key id) (fieldType discriminator key id) := by
  unfold fieldType
  split
  · exact .pure hR ⟨by rintro _ ⟨⟩, rfl⟩
  · refine graph hR (dialect ?_)
    refine (resolve_returns id _ (some key) hR).bind fun e e' s' t' _ _ hR' he => .pure hR' ?_
    obtain ⟨hover, rfl⟩ := he
    refine ⟨?_, rfl⟩
    rintro _ ⟨⟩
    exact hover

lemma declareField_returns (discriminator : Option (Discriminator SchemaId))
    (required : List String) (key : String) (id : SchemaId) (hR : b.related s t) :
    b.Returns s t (declareField discriminator required key id)
      (declareField discriminator required key id) := by
  refine (fieldType_returns discriminator key id hR).bind fun type type' s' t' _ _ hR' h => ?_
  refine graph hR' (.pure hR' ?_)
  obtain ⟨hover, rfl⟩ := h
  exact ⟨hover, rfl⟩

lemma declareFields_returns (discriminator : Option (Discriminator SchemaId))
    (required : List String) (properties : List (String × SchemaId)) (hR : b.related s t) :
    b.Returns s t (declareFields discriminator required properties)
      (declareFields discriminator required properties) := by
  induction properties generalizing s t with
  | nil => exact .pure hR .nil
  | cons property rest ih =>
    obtain ⟨key, id⟩ := property
    refine (declareField_returns discriminator required key id hR).bind
      fun field field' s' t' _ _ hR' hfield => ?_
    refine (ih hR').bind fun fields fields' u v hs ht hR'' hfields => .pure hR'' ?_
    exact (hfield.run (b.mirrors hR') (b.mirrors hR'') hs ht).cons hfields

lemma declareInterface_returns (id : SchemaId) {name name' : String} (hR : b.related s t)
    (hname : Renamed s t name name') :
    b.Returns s t (declareInterface id name) (declareInterface id name') := by
  refine graph hR ?_
  refine (collectParts_returns _ hR ⟨fun _ h => absurd h List.not_mem_nil, rfl⟩).bind
    fun parts parts' s' t' hs ht hR' hparts => ?_
  obtain ⟨hover, rfl⟩ := hparts
  have hparents : Renamed s' t' parts.parents (parts.parents.map (s'.translate t')) := ⟨hover, rfl⟩
  refine (declareFields_returns _ _ _ hR').bind
    fun fields fields' u v hs' ht' hR'' hfields => .pure hR'' ?_
  have hmirrors := b.mirrors hR''
  have hparents' := hparents.run (b.mirrors hR') hmirrors hs' ht'
  refine Renamed.declaration ?_ (hparents'.interface (hfields.append (.addedField _ _)) _)
  exact hname.run (b.mirrors hR) hmirrors (hs.trans hs') (ht.trans ht')

lemma declare_returns (id : SchemaId) {name name' : String} (hR : b.related s t)
    (hname : Renamed s t name name') :
    b.Returns s t (declare id name) (declare id name') := by
  have hmirrors := b.mirrors hR
  refine .look get_apply get_apply ?_
  simp only [hmirrors.graph, Session.wrapped?, hmirrors.wrappers]
  split
  · exact declareChoice_returns _ hR hname
  · split
    · exact declareChoice_returns _ hR hname
    · split
      · exact .pure hR (hname.declaration (.enumeration _))
      · split
        · refine (aliasTarget_returns id hR).bind fun e e' s' t' hs ht hR' he => .pure hR' ?_
          exact (hname.run hmirrors (b.mirrors hR') hs ht).declaration he.synonym
        · split
          · have hany : Renamed s t any any := .keyword hmirrors (by decide)
            exact .pure hR (hname.declaration hany.synonym)
          · exact declareInterface_returns id hR hname

lemma declarationsWithin_returns (bound position : ℕ) (hR : b.related s t) :
    b.Returns s t (declarationsWithin bound position) (declarationsWithin bound position) := by
  induction bound generalizing s t position with
  | zero => exact .throw hR b.exhausted
  | succ bound ih =>
    have hmirrors := b.mirrors hR
    refine .look get_apply get_apply ?_
    cases hentry : s.types[position]? with
    | none =>
      rw [hmirrors.types_eq_none hentry]
      exact .pure hR .nil
    | some entry =>
      obtain ⟨id, name⟩ := entry
      obtain ⟨name', hentry', hname⟩ := hmirrors.types_eq_some hentry
      rw [hentry']
      refine (declare_returns id hR hname).bind fun d d' s' t' _ _ hR' hd => ?_
      refine (ih (position + 1) hR').bind fun ds ds' u v hs ht hR'' hds => .pure hR'' ?_
      exact (hd.run (b.mirrors hR') (b.mirrors hR'') hs ht).cons hds

lemma declarations_returns (hR : b.related s t) : b.Returns s t declarations declarations :=
  graph hR (declarationsWithin_returns _ _ hR)

lemma emit_inStep (hR : b.related s t) : b.InStep s t emit emit fun _ _ _ _ => True :=
  .look read_apply read_apply
    ((declarations_returns hR).bind fun _ _ _ _ _ _ hR' _ => .pure hR' trivial)

lemma call_inStep (call : Call) (hR : b.related s t)
    (hdefined : ∀ definitions, call = .register definitions →
      ∀ entry ∈ definitions, b.defined entry.2) :
    b.InStep s t call.run call.run fun _ _ _ _ => True := by
  have hresolve : ∀ id nullable hint s t, b.related s t →
      b.Returns s t (SessionM.resolve id nullable hint) (SessionM.resolve id nullable hint) :=
    fun id nullable hint _ _ hR => resolve_returns id nullable hint hR
  cases call with
  | typeName id hint => exact (typeName_returns id hint hR).discard
  | register definitions => exact register_inStep hR (hdefined definitions rfl)
  | resolve id nullable hint => exact (resolve_returns id nullable hint hR).discard
  | dictionaryKey id => exact (dictionaryKey_returns hresolve id hR).discard
  | dictionaryValue id => exact (dictionaryValue_returns hresolve id hR).discard
  | variants choice => exact (variants_returns rfl hR).discard
  | emit => exact (emit_inStep hR).discard

end Bond

end SchemaTypes
