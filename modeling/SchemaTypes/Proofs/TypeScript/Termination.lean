import SchemaTypes.Proofs.Naming
import SchemaTypes.Proofs.Session.Calls
import SchemaTypes.Proofs.Session.Guards

/-! Generation ends. A usage is resolved inside containers, which are entered once each, and inside
alternatives, which stand below it; and as many schemas are declared as there are at most. -/

namespace SchemaTypes

namespace Graph

variable {g : Graph} {id : SchemaId} {inlineNamedAny : Bool}

lemma actual_resolvable (hgenerates : g.generatesType inlineNamedAny id = false)
    (hany : ((g.node (g.actual (g.resolvable inlineNamedAny id))).isAny &&
      !g.isReference (g.resolvable inlineNamedAny id)) = false)
    (htypes : (g.node (g.actual (g.resolvable inlineNamedAny id))).types = []) :
    g.actual (g.resolvable inlineNamedAny id) = g.removeNullability id := by
  simp only [generatesType, Bool.or_eq_false_iff] at hgenerates
  have hreference : g.isReference (g.resolvable inlineNamedAny id) = false := hgenerates.1
  have hself : g.actual (g.resolvable inlineNamedAny id) = g.resolvable inlineNamedAny id := by
    apply actual_of_reference
    simpa [isReference] using hreference
  rw [hself, hreference, Bool.not_false, Bool.and_true] at hany
  rw [hself] at htypes ⊢
  unfold resolvable at hany htypes ⊢
  simp only at hany htypes ⊢
  split
  · rfl
  · -- A schema without a type that is not anything gets a type.
    rename_i hdef
    rw [if_neg hdef] at hany htypes
    exact absurd (by simp [isDefinitionType, hany, Node.isTuple, Node.isDictionary, Node.isArray,
      Node.isObject, Node.hasType, Node.hasNoType, htypes]) hdef

end Graph

namespace Session

variable {env : Environment} {s t : Session} {g : Graph}
  {expanding : List (SchemaId × Option String)}

/-- The session extends the graph while these containers are spelled out. -/
structure Ready (g : Graph) (expanding : List (SchemaId × Option String)) (s : Session) : Prop where
  extends_graph : s.Extends g
  expanding : s.expanding = expanding

lemma Ready.after (hs : s.Ready g expanding) (h : Balanced env s t) : t.Ready g expanding :=
  ⟨h.run.extends hs.extends_graph, h.expanding.trans hs.expanding⟩

end Session

/-- Usages of these schemas are resolved, while these containers are spelled out. -/
def Resolver.EndsOn (env : Environment) (g : Graph) (expanding : List (SchemaId × Option String))
    (P : SchemaId → Prop) (resolve : Resolver) : Prop :=
  ∀ id nullable hint t, t.Ready g expanding → id < t.graph.size → P id →
    SessionM.Ends env t (resolve id nullable hint)

namespace SessionM

variable {env : Environment} {s : Session} {g : Graph} {id : SchemaId} {resolve : Resolver}
  {expanding : List (SchemaId × Option String)} {P : SchemaId → Prop}

lemma spellNullable_ends (nullable : Bool) (e : TypeExpr) :
    Ends env s (spellNullable nullable e) := by
  refine .look read_apply ?_
  simp only
  split
  · exact .pure _
  · exact .pure _

section

variable (hresolve : resolve.EndsOn env g expanding P) (hs : s.Ready g expanding)

include hresolve hs

lemma resolveMember_ends (hid : id < s.graph.size) (hP : P id) :
    Ends env s (resolveMember resolve id) :=
  .look graph_apply (.look dialect_apply (hresolve id _ none s hs hid hP))

lemma resolveMembers_ends {ids : List SchemaId} (hids : ∀ id ∈ ids, id < s.graph.size)
    (hP : ∀ id ∈ ids, P id) : Ends env s (resolveMembers resolve ids) := by
  induction ids generalizing s with
  | nil => exact .pure _
  | cons id rest ih =>
    obtain ⟨hid, hrest⟩ := List.forall_mem_cons.mp hids
    obtain ⟨hPid, hPrest⟩ := List.forall_mem_cons.mp hP
    refine (resolveMember_ends hresolve hs hid hPid).bind fun e t _ hbalanced => ?_
    have hnext := ih (hs.after hbalanced) (fun id hid => hbalanced.lt (hrest id hid)) hPrest
    exact hnext.bind fun _ _ _ _ => .pure _

lemma resolveDistinct_ends {found : List TypeExpr} {usages : List (SchemaId × Bool)}
    (husages : ∀ usage ∈ usages, usage.1 < s.graph.size) (hP : ∀ usage ∈ usages, P usage.1) :
    Ends env s (resolveDistinct resolve found usages) := by
  induction usages generalizing s found with
  | nil => exact .pure _
  | cons usage rest ih =>
    obtain ⟨hid, hrest⟩ := List.forall_mem_cons.mp husages
    obtain ⟨hPid, hPrest⟩ := List.forall_mem_cons.mp hP
    refine (hresolve usage.1 usage.2 none s hs hid hPid).bind fun e t _ hbalanced => ?_
    exact ih (hs.after hbalanced) (fun usage husage => hbalanced.lt (hrest usage husage)) hPrest

lemma resolveAlternatives_ends {found : List TypeExpr} {alternatives : List (Option SchemaId)}
    (hids : ∀ id, some id ∈ alternatives → id < s.graph.size)
    (hP : ∀ id, some id ∈ alternatives → P id) :
    Ends env s (resolveAlternatives resolve found alternatives) := by
  induction alternatives generalizing s found with
  | nil => exact .pure _
  | cons alternative rest ih =>
    have hrest : ∀ id, some id ∈ rest → id < s.graph.size :=
      fun id hid => hids id (List.mem_cons_of_mem _ hid)
    have hPrest : ∀ id, some id ∈ rest → P id := fun id hid => hP id (List.mem_cons_of_mem _ hid)
    have hnext : ∀ e t, Session.Balanced env s t → Ends env t (resolveAlternatives resolve
        (if found.contains e then found else found ++ [e]) rest) := fun e t hbalanced =>
      ih (hs.after hbalanced) (fun id hid => hbalanced.lt (hrest id hid)) hPrest
    cases alternative with
    | none => exact (Ends.pure _).bind fun e t _ hbalanced => hnext e t hbalanced
    | some id =>
      refine Ends.bind (hresolve id false none s hs ?_ ?_)
        fun e t _ hbalanced => hnext e t hbalanced
      · exact hids id List.mem_cons_self
      · exact hP id List.mem_cons_self

lemma spellUnion_ends {alternatives : List (Option SchemaId)}
    (hids : ∀ id, some id ∈ alternatives → id < s.graph.size)
    (hP : ∀ id, some id ∈ alternatives → P id) :
    Ends env s (spellUnion resolve alternatives) :=
  (resolveAlternatives_ends hresolve hs hids hP).bind fun _ _ _ _ => .pure _

lemma resolvePlain_ends {node : Node} (hnode : node.Within s.graph.size)
    (hP : node.types = [] → ∀ id, some id ∈ node.oneOf ∨ id ∈ node.anyOf → P id) :
    Ends env s (resolvePlain resolve node) := by
  cases node.plain with
  | keyword _ h =>
    rw [h]
    exact .pure _
  | union alternatives hno _ halternatives h =>
    rw [h]
    refine spellUnion_ends hresolve hs (fun id hid => ?_) fun id hid => ?_
    · exact (Node.mem_of_mem_union halternatives hid).elim (hnode.oneOf id) (hnode.anyOf id)
    · exact hP hno id (Node.mem_of_mem_union halternatives hid)

end

section

variable (hresolve : resolve.EndsOn env g expanding fun _ => True) (hs : s.Ready g expanding)

include hresolve hs

lemma dictionaryValue_ends (id : SchemaId) : Ends env s (dictionaryValue resolve id) := by
  have hnode := hs.extends_graph.closed id
  refine .look graph_apply ?_
  simp only
  split
  · rename_i additional hadditional
    have hlt := hnode.additional additional hadditional
    exact (resolveMember_ends hresolve hs hlt trivial).bind fun _ _ _ _ => .pure _
  · split
    · refine .look dialect_apply (Ends.bind ?_ fun es t _ _ => ?_)
      · refine resolveDistinct_ends hresolve hs (fun usage husage => ?_) fun _ _ => trivial
        obtain ⟨entry, hentry, rfl⟩ := List.mem_map.mp husage
        exact hnode.patterns entry hentry
      · split
        · exact .pure _
        · exact .pure _
    · exact .pure _

lemma dictionaryKey_ends (id : SchemaId) : Ends env s (dictionaryKey resolve id) := by
  refine .look graph_apply ?_
  split
  · rename_i key hkey
    have hlt := (hs.extends_graph.closed id).dictionaryKey key hkey
    exact (resolveMember_ends hresolve hs hlt trivial).bind fun _ _ _ _ => .pure _
  · exact .pure _

lemma spellContainer_ends (id : SchemaId) : Ends env s (spellContainer resolve id) := by
  have hnode := hs.extends_graph.closed id
  refine .look graph_apply ?_
  simp only
  split
  · split
    · rename_i items hitems
      have hmembers := resolveMembers_ends hresolve hs (hnode.tuple items hitems) fun _ _ => trivial
      exact hmembers.bind fun _ _ _ _ => .pure _
    · rename_i item hitem
      have hmember := resolveMember_ends hresolve hs (hnode.each item hitem) trivial
      exact hmember.bind fun _ _ _ _ => .pure _
    · exact .pure _
  · refine (dictionaryKey_ends hresolve hs id).bind fun key t _ hbalanced => ?_
    have hvalue := dictionaryValue_ends hresolve (hs.after hbalanced) id
    exact hvalue.bind fun _ _ _ _ => .pure _

end

lemma resolveContainer_ends {hint : Option String} (hs : s.Extends g) (hid : id < s.graph.size)
    (hresolve : id ∉ s.expanding.map (·.1) →
      resolve.EndsOn env g ((id, hint) :: s.expanding) fun _ => True) :
    Ends env s (resolveContainer resolve id hint) := by
  refine .look get_apply ?_
  split
  · exact .pure _
  · exact (typeName_ends hs hid _).bind fun _ _ _ _ => .pure _
  · rename_i hlookup
    have hnot : id ∉ s.expanding.map (·.1) := Entries.lookup_eq_none.mp hlookup
    refine Ends.bind (.expansion hnot ?_) fun e t _ _ => .look get_apply ?_
    · have hbegin : (s.beginExpansion id hint).Extends g := hs.congr rfl rfl
      exact spellContainer_ends (hresolve hnot) ⟨hbegin, rfl⟩ id
    · split
      · exact .pure _
      · exact .pure _

lemma resolveBare_ends {rank : SchemaId → ℕ} (hrank : g.Ranked rank) {hint : Option String}
    (hs : s.Extends g) (hid : id < s.graph.size)
    (hcontainers : ∀ container hint, container < g.size → container ∉ s.expanding.map (·.1) →
      resolve.EndsOn env g ((container, hint) :: s.expanding) fun _ => True)
    (halternatives : resolve.EndsOn env g s.expanding fun other => rank other < rank id) :
    Ends env s (resolveBare resolve id hint) := by
  have hgrown := hrank.grows hs.grows hs.le_size
  have hactual : s.graph.actual (s.graph.resolvable env.resolver.inlineNamedAny id) <
      s.graph.size := hs.closed.actual_lt (hs.closed.resolvable_lt hid)
  refine .look get_apply (.look read_apply ?_)
  simp only
  split
  · rename_i wrapper hwrapper
    exact (typeName_ends hs (hs.wrapper?_lt hwrapper) hint).bind fun _ _ _ _ => .pure _
  · split
    · exact .pure _
    · rename_i hany
      split
      · exact (typeName_ends hs hid hint).bind fun _ _ _ _ => .pure _
      · rename_i hgenerates
        split
        · -- A wrapper has no type, so that the container is one of the document.
          rename_i hcontainer
          refine resolveContainer_ends hs hactual (hcontainers _ hint ?_)
          refine hs.lt_of_types fun htypes => ?_
          simp [Node.isArray, Node.isDictionary, Node.isObject, Node.hasType, htypes] at hcontainer
        · refine resolvePlain_ends halternatives ⟨hs, rfl⟩ (hs.closed _)
            fun htypes other hother => ?_
          rw [Bool.or_eq_true, not_or, Bool.not_eq_true] at hgenerates
          have heq := Graph.actual_resolvable hgenerates.1 (Bool.not_eq_true _ ▸ hany) htypes
          rw [heq] at hother
          exact Nat.lt_of_lt_of_le (hgrown.splits _ _ hother) (hgrown.removeNullability_le id)

lemma resolveWithin_ends {rank : SchemaId → ℕ} (hrank : g.Ranked rank) {depth : ℕ} {nullable : Bool}
    {hint : Option String} (hs : s.Extends g) (hid : id < s.graph.size)
    (hdepth : g.spare (s.expanding.map (·.1)) * (g.size + 1) + rank id < depth) :
    Ends env s (resolveWithin depth id nullable hint) := by
  induction depth generalizing s id nullable hint with
  | zero => exact absurd hdepth (Nat.not_lt_zero _)
  | succ depth ih =>
    refine (resolveBare_ends hrank hs hid ?_ ?_).bind fun e t _ _ => spellNullable_ends nullable e
    · -- There is one container less to enter, whatever the rank.
      intro container hint hlt hnot other nullable hint' t ht hother _
      refine ih ht.extends_graph hother ?_
      have hspare := Graph.spare_cons_lt hlt hnot
      have hother := hrank.rank_lt other
      have hmul := Nat.mul_le_mul_right (g.size + 1) (Nat.succ_le_of_lt hspare)
      rw [Nat.succ_mul] at hmul
      have hused : t.expanding.map (·.1) = container :: s.expanding.map (·.1) := by
        rw [ht.expanding, List.map_cons]
      rw [hused]
      omega
    · -- The containers are the same, and an alternative has a smaller rank.
      intro other nullable hint t ht hlt hother
      refine ih ht.extends_graph hlt ?_
      rw [ht.expanding]
      omega

variable {rank : SchemaId → ℕ} (hrank : g.Ranked rank)

include hrank

lemma resolve_endsOn (expanding : List (SchemaId × Option String)) :
    SessionM.resolve.EndsOn env g expanding fun _ => True := by
  intro id nullable hint t ht hid _
  refine .look graph_apply (resolveWithin_ends hrank ht.extends_graph hid ?_)
  have hspare := g.spare_le (t.expanding.map (·.1))
  have hlt := hrank.rank_lt id
  have hsize := ht.extends_graph.le_size
  calc g.spare (t.expanding.map (·.1)) * (g.size + 1) + rank id
      < g.size * (g.size + 1) + (g.size + 1) := by
        have hmul := Nat.mul_le_mul_right (g.size + 1) hspare
        omega
    _ = (g.size + 1) * (g.size + 1) := by rw [Nat.succ_mul]
    _ ≤ (t.graph.size + 2) * (t.graph.size + 2) := Nat.mul_le_mul (by omega) (by omega)

lemma resolve_ends (hs : s.Extends g) (hid : id < s.graph.size) (nullable : Bool)
    (hint : Option String) : Ends env s (SessionM.resolve id nullable hint) :=
  resolve_endsOn hrank s.expanding id nullable hint s ⟨hs, rfl⟩ hid trivial

lemma resolveVariants_ends {ids : List SchemaId} (hs : s.Extends g)
    (hids : ∀ id ∈ ids, id < s.graph.size) : Ends env s (resolveVariants ids) := by
  induction ids generalizing s with
  | nil => exact .pure _
  | cons id rest ih =>
    obtain ⟨hid, hrest⟩ := List.forall_mem_cons.mp hids
    refine (resolve_ends hrank hs hid false none).bind fun e t _ hbalanced => ?_
    have hnext := ih (hbalanced.run.extends hs) fun id hid => hbalanced.lt (hrest id hid)
    exact hnext.bind fun _ _ _ _ => .pure _

lemma variants_ends (hs : s.Extends g) (choice : Choice) : Ends env s (variants choice) := by
  refine .look graph_apply (resolveVariants_ends hrank hs fun id hid => ?_)
  exact (hs.closed choice.schema).oneOf id (Graph.mem_alternatives.mp hid)

lemma declareChoice_ends (hs : s.Extends g) (choice : Choice) :
    Ends env s (declareChoice choice) :=
  (variants_ends hrank hs choice).bind fun _ _ _ _ => .look graph_apply (.pure _)

omit hrank in
lemma collectParts_ends {parts : Parts} {ids : List SchemaId} (hs : s.Extends g)
    (hids : ∀ id ∈ ids, id < s.graph.size) : Ends env s (collectParts parts ids) := by
  induction ids generalizing s parts with
  | nil => exact .pure _
  | cons id rest ih =>
    obtain ⟨hid, hrest⟩ := List.forall_mem_cons.mp hids
    refine .look graph_apply ?_
    split
    · refine (typeName_ends hs hid none).bind fun name t _ hbalanced => ?_
      exact ih (hbalanced.run.extends hs) fun id hid => hbalanced.lt (hrest id hid)
    · exact ih hs hrest

lemma declareField_ends {discriminator : Option (Discriminator SchemaId)}
    {required : List String} {key : String} (hs : s.Extends g) (hid : id < s.graph.size) :
    Ends env s (declareField discriminator required key id) := by
  refine Ends.bind ?_ fun _ _ _ _ => .look graph_apply (.pure _)
  unfold fieldType
  split
  · exact .pure _
  · refine .look graph_apply (.look dialect_apply ?_)
    exact (resolve_ends hrank hs hid _ _).bind fun _ _ _ _ => .pure _

lemma declareFields_ends {discriminator : Option (Discriminator SchemaId)}
    {required : List String} {properties : List (String × SchemaId)} (hs : s.Extends g)
    (hproperties : ∀ entry ∈ properties, entry.2 < s.graph.size) :
    Ends env s (declareFields discriminator required properties) := by
  induction properties generalizing s with
  | nil => exact .pure _
  | cons property rest ih =>
    obtain ⟨hid, hrest⟩ := List.forall_mem_cons.mp hproperties
    refine (declareField_ends hrank hs hid).bind fun field t _ hbalanced => ?_
    have hnext := ih (hbalanced.run.extends hs) fun entry h => hbalanced.lt (hrest entry h)
    exact hnext.bind fun _ _ _ _ => .pure _

omit hrank in
lemma collectParts_within {parts : Parts} (ids : List SchemaId) (hs : s.Extends g)
    (hparts : ∀ entry ∈ parts.properties, entry.2 < s.graph.size) :
    Leads env s (collectParts parts ids) fun found t =>
      ∀ entry ∈ found.properties, entry.2 < t.graph.size := by
  induction ids generalizing s parts with
  | nil => exact .pure hparts
  | cons id rest ih =>
    refine .look graph_apply ?_
    split
    · refine (typeName_leads id none).bind fun name t hrun _ => ih (hrun.extends hs) ?_
      exact fun entry hentry => Nat.lt_of_lt_of_le (hparts entry hentry) hrun.size_le
    · refine ih hs fun entry hentry => ?_
      rcases Entries.snd_of_mem_putAll hentry with hentry | ⟨other, hother, heq⟩
      · exact hparts entry hentry
      · rw [heq]
        exact (hs.closed _).properties other hother

lemma declareInterface_ends (hs : s.Extends g) (id : SchemaId) (name : String) :
    Ends env s (declareInterface id name) := by
  have hnode := hs.closed id
  refine .look graph_apply ?_
  refine (collectParts_ends hs hnode.allOf).bind fun parts t hcollect hbalanced => ?_
  have hwithin := ((collectParts_within _ hs (by simp)).result hcollect).2
  refine (declareFields_ends hrank (hbalanced.run.extends hs) fun entry hentry => ?_).bind
    fun _ _ _ _ => .pure _
  rcases Entries.snd_of_mem_putAll hentry with hentry | ⟨other, hother, heq⟩
  · exact hwithin entry hentry
  · rw [heq]
    exact hbalanced.lt (hnode.properties other hother)

lemma aliasTarget_ends (hs : s.Ready g []) (id : SchemaId) : Ends env s (aliasTarget id) := by
  refine Ends.expansion (by simp [hs.expanding]) ?_
  have hbegin : (s.beginExpansion id none).Extends g := hs.extends_graph.congr rfl rfl
  exact spellContainer_ends (resolve_endsOn hrank ((id, none) :: s.expanding)) ⟨hbegin, rfl⟩ id

lemma declare_ends (hs : s.Ready g []) (id : SchemaId) (name : String) :
    Ends env s (declare id name) := by
  have hextends := hs.extends_graph
  refine .look get_apply ?_
  simp only
  split
  · exact declareChoice_ends hrank hextends _
  · split
    · exact declareChoice_ends hrank hextends _
    · split
      · exact .pure _
      · split
        · exact (aliasTarget_ends hrank hs id).bind fun _ _ _ _ => .pure _
        · split
          · exact .pure _
          · exact declareInterface_ends hrank hextends id name

omit hrank in
lemma types_length_le (hs : s.Extends g) (happart : s.NamesApart) (hnamed : s.Named) :
    s.types.length ≤ 2 * g.size := by
  have hle : (s.types.map (·.1)).length ≤ s.graph.size := by
    refine length_le_of_lt happart.schemas_nodup fun id hid => ?_
    obtain ⟨entry, hentry, rfl⟩ := List.mem_map.mp hid
    exact hnamed entry hentry
  rw [List.length_map] at hle
  exact hle.trans hs.size_le

/-- The position comes to the end of the list before the bound is used up, since the list is never
longer than twice the graph. -/
lemma declarationsWithin_ends {bound position : ℕ} (hs : s.Ready g []) (happart : s.NamesApart)
    (hnamed : s.Named) (hposition : position ≤ s.types.length)
    (hbound : 2 * g.size < bound + position) :
    Ends env s (declarationsWithin bound position) := by
  induction bound generalizing s position with
  | zero =>
    have hle := types_length_le hs.extends_graph happart hnamed
    omega
  | succ bound ih =>
    refine .look get_apply ?_
    split
    · exact .pure _
    · rename_i id name hget
      have hlt := (List.getElem?_eq_some_iff.mp hget).1
      refine (declare_ends hrank hs id name).bind fun d t _ hbalanced => ?_
      have hprefix := hbalanced.run.types_prefix.length_le
      have hnext := ih (hs.after hbalanced) (hbalanced.run.namesApart happart)
        (hbalanced.named hnamed) (by omega : position + 1 ≤ t.types.length) (by omega)
      exact hnext.bind fun _ _ _ _ => .pure _

lemma declarations_ends (hs : s.Ready g []) (happart : s.NamesApart) (hnamed : s.Named) :
    Ends env s declarations := by
  have hsize := hs.extends_graph.size
  refine .look graph_apply ?_
  exact declarationsWithin_ends hrank hs happart hnamed (Nat.zero_le _) (by omega)

lemma emit_ends (hs : s.Ready g []) (happart : s.NamesApart) (hnamed : s.Named) :
    Ends env s emit :=
  .look read_apply ((declarations_ends hrank hs happart hnamed).bind fun _ _ _ _ => .pure _)

end SessionM

namespace Call

open SessionM

variable {env : Environment} {s : Session} {g : Graph} {rank : SchemaId → ℕ}

def Within (n : ℕ) : Call → Prop
  | typeName id _ => id < n
  | register definitions => ∀ entry ∈ definitions, entry.2 < n
  | resolve id _ _ => id < n
  | dictionaryKey _ => True
  | dictionaryValue _ => True
  | variants _ => True
  | emit => True

lemma run_ends (hrank : g.Ranked rank) (hs : s.Ready g []) (happart : s.NamesApart)
    (hnamed : s.Named) (call : Call) (hcall : call.Within s.graph.size) :
    Ends env s call.run := by
  have hextends := hs.extends_graph
  have hresolve : SessionM.resolve.EndsOn env g [] fun _ => True := resolve_endsOn hrank []
  cases call with
  | typeName id hint => exact (typeName_ends hextends hcall hint).discard
  | register definitions => exact register_ends hextends hcall
  | resolve id nullable hint => exact (resolve_ends hrank hextends hcall nullable hint).discard
  | dictionaryKey id => exact (dictionaryKey_ends hresolve hs id).discard
  | dictionaryValue id => exact (dictionaryValue_ends hresolve hs id).discard
  | variants choice => exact (variants_ends hrank hextends choice).discard
  | emit => exact (emit_ends hrank hs happart hnamed).discard

end Call

namespace Session

variable {env : Environment} {s : Session} {g : Graph} {rank : SchemaId → ℕ}

/-- Each call names schemas that the graph has when it is made. -/
def Accepts (env : Environment) : Session → List Call → Prop
  | _, [] => True
  | s, call :: rest => call.Within s.graph.size ∧ Accepts env (call.run env s).2 rest

structure Idle (g : Graph) (s : Session) : Prop where
  ready : s.Ready g []
  apart : s.NamesApart
  named : s.Named

lemma Idle.start (hg : g.Closed) : Idle g { graph := g } :=
  ⟨⟨.start hg, rfl⟩, .start g, by simp [Named]⟩

lemma Idle.after {t : Session} (hs : s.Idle g) (h : Balanced env s t) : t.Idle g :=
  ⟨hs.ready.after h, h.run.namesApart hs.apart, h.named hs.named⟩

lemma Accepts.split {calls more : List Call} (hrank : g.Ranked rank) (hs : s.Idle g)
    (h : s.Accepts env (calls ++ more)) :
    (s.after env calls).Idle g ∧ (s.after env calls).Accepts env more := by
  induction calls generalizing s with
  | nil => exact ⟨hs, h⟩
  | cons first rest ih =>
    have hfirst : SessionM.Ends env s first.run :=
      first.run_ends hrank hs.ready hs.apart hs.named h.1
    exact ih (hs.after hfirst.1) h.2

end Session

namespace Document

open SessionM

variable {text : String} {d : Document} {env : Environment} {s : Session}

lemma register_ends (hs : s.Extends d.graph) (hroot : d.root < d.graph.size)
    (hclosed : d.graph.Closed) : Ends env s d.register := by
  have hsize := hs.le_size
  refine Ends.bind (SessionM.register_ends hs fun entry hentry => ?_) fun _ t _ hbalanced => ?_
  · exact Nat.lt_of_lt_of_le ((hclosed d.root).definitions entry hentry) hsize
  · refine .look (isDefinitionType_apply d.root) (.look graph_apply ?_)
    split
    · have hlt := hbalanced.lt (Nat.lt_of_lt_of_le hroot hsize)
      exact .look read_apply (typeName_ends (hbalanced.run.extends hs) hlt _).discard
    · exact .pure _

/-- Generation ends, and so does each call of a session. What keeps them from going on for ever:
the graph at most doubles, chains of alternatives are not longer than the graph was at first, so
that looking into them deeper finds nothing more, and there is always a free name to count on to. -/
theorem generation_ends (hload : ofJson text = .ok d ∨ ofYaml text = .ok d) (calls : List Call)
    (call : Call) (hcalls : Session.Accepts env { graph := d.graph } (calls ++ [call])) :
    let start : Session := { graph := d.graph }
    (d.emit env start).1 ≠ .error .exhausted ∧
      (call.run env (start.after env calls)).1 ≠ .error .exhausted ∧
      (∀ s, Session.Run env start s → s.graph.size ≤ 2 * d.graph.size ∧
        (∀ chain : List SchemaId, chain.IsChain s.graph.Splits → chain.length ≤ d.graph.size) ∧
        ∀ dialect depth id, d.graph.size ≤ depth →
          s.graph.isNullableWithin dialect depth id = s.graph.isNullable dialect id) ∧
      ∀ taken base, Naming.firstFree taken base ∉ taken := by
  intro start
  obtain ⟨root, hrepresents⟩ := represents_of_load hload
  have hclosed := hrepresents.closed
  obtain ⟨rank, hrank⟩ := hrepresents.exists_ranked
  have hstart : start.Idle d.graph := .start hclosed
  refine ⟨?_, ?_, fun s hs => ⟨?_, fun chain hchain => ?_, ?_⟩, Naming.firstFree_not_mem⟩
  · have hroot : d.root < d.graph.size := by
      rw [hrepresents.root_eq]
      exact hrepresents.size_pos
    have hends : Ends env start d.emit := by
      refine (register_ends hstart.ready.extends_graph hroot hclosed).bind fun _ t _ hbalanced => ?_
      have ht := hstart.after hbalanced
      exact (SessionM.emit_ends hrank ht.ready ht.apart ht.named).bind fun _ _ _ _ => .pure _
    exact hends.2
  · obtain ⟨hidle, hcall, _⟩ := hcalls.split hrank hstart
    exact (Call.run_ends hrank hidle.ready hidle.apart hidle.named call hcall).2
  · exact (hs.extends (.start hclosed)).size_le
  · exact hrank.chain_length (hchain.imp fun _ _ h => hs.grows.splits.mp h)
  · intro dialect depth id hdepth
    have hsize := (hs.extends (.start hclosed)).le_size
    have hlt := hrank.rank_lt id
    have hgrown := hrank.grows hs.grows hsize
    exact hgrown.isNullableWithin_eq (by omega) (by omega)

/-- A list of lists of lists without end. -/
def nestedText : String :=
  "\x7b\"$defs\":\x7b\"A\":\x7b\"type\":\"array\"," ++
    "\"items\":\x7b\"$ref\":\"#/$defs/A\"\x7d\x7d\x7d\x7d"

lemma nested_load : ∃ d, ofJson nestedText = .ok d ∧ 1 < d.graph.size := by
  decide +kernel

theorem nested_generation_ends :
    ∃ d, ofJson nestedText = .ok d ∧
      Session.Accepts (.ofSettings {}) { graph := d.graph } ([.resolve 1 false none] ++ [.emit]) ∧
      let start : Session := { graph := d.graph }
      (d.emit (.ofSettings {}) start).1 ≠ .error .exhausted ∧
        (Call.emit.run (.ofSettings {})
          (start.after (.ofSettings {}) [.resolve 1 false none])).1 ≠ .error .exhausted ∧
        (∀ s, Session.Run (.ofSettings {}) start s → s.graph.size ≤ 2 * d.graph.size ∧
          (∀ chain : List SchemaId, chain.IsChain s.graph.Splits → chain.length ≤ d.graph.size) ∧
          ∀ dialect depth id, d.graph.size ≤ depth →
            s.graph.isNullableWithin dialect depth id = s.graph.isNullable dialect id) ∧
        ∀ taken base, Naming.firstFree taken base ∉ taken := by
  obtain ⟨d, hload, hsize⟩ := nested_load
  have hcalls : Session.Accepts (.ofSettings {}) { graph := d.graph }
      ([.resolve 1 false none] ++ [.emit]) := ⟨hsize, trivial, trivial⟩
  exact ⟨d, hload, hcalls, generation_ends (.inl hload) [.resolve 1 false none] .emit hcalls⟩

end Document

end SchemaTypes
