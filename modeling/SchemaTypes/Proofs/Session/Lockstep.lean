import SchemaTypes.Proofs.TypeScript.Renaming

/-! Two sessions that differ in their names. What is done in both goes through such sessions side
by side, and ends in the same way in both. -/

namespace SchemaTypes

namespace Session

variable {env env' : Environment} {s t s' t' : Session}

/-- The name that the second session gave to the schema that has this name in the first. -/
def translate (s t : Session) (name : String) : String :=
  ((s.types.find? (·.2 == name)).bind fun entry => t.nameOf? entry.1).getD name

/-- The sessions agree on everything but the names, and different names stay different. -/
structure Mirrors (s t : Session) : Prop where
  graph : t.graph = s.graph
  prepared : t.prepared = s.prepared
  wrappers : t.wrappers = s.wrappers
  registering : t.registering = s.registering
  expanding : t.expanding = s.expanding
  schemas : t.types.map (·.1) = s.types.map (·.1)
  apart : s.NamesApart
  keyword : ∀ name ∈ TypeExpr.keywords, s.translate t name = name
  injective : Set.InjOn (s.translate t) {name | name ∈ TypeExpr.keywords ∨ name ∈ s.names}

lemma mem_types {id : SchemaId} {name : String} (h : s.nameOf? id = some name) :
    (id, name) ∈ s.types := by
  obtain ⟨before, after, heq, _⟩ := List.lookup_eq_some_iff.mp h
  simp [heq]

lemma find?_of_mem_names {name : String} (h : name ∈ s.names) :
    ∃ entry ∈ s.types, s.types.find? (·.2 == name) = some entry ∧ entry.2 = name := by
  obtain ⟨entry, hentry, rfl⟩ := List.mem_map.mp h
  have hsome : (s.types.find? (·.2 == entry.2)).isSome :=
    List.find?_isSome.mpr ⟨entry, hentry, BEq.rfl⟩
  obtain ⟨found, hfound⟩ := Option.isSome_iff_exists.mp hsome
  have heq := List.find?_some hfound
  exact ⟨found, List.mem_of_find?_eq_some hfound, hfound, eq_of_beq heq⟩

lemma translate_of_not_mem {name : String} (h : name ∉ s.names) : s.translate t name = name := by
  have hnone : s.types.find? (·.2 == name) = none := by
    refine List.find?_eq_none.mpr fun entry hentry heq => h ?_
    exact List.mem_map.mpr ⟨entry, hentry, eq_of_beq heq⟩
  rw [translate, hnone]
  rfl

lemma NamesApart.translate (hs : s.NamesApart) {id : SchemaId} {name name' : String}
    (h : s.nameOf? id = some name) (h' : t.nameOf? id = some name') :
    s.translate t name = name' := by
  obtain ⟨entry, hentry, hfind, heq⟩ := find?_of_mem_names (mem_names h)
  have hsame : entry = (id, name) :=
    List.inj_on_of_nodup_map hs.names_nodup hentry (mem_types h) heq
  rw [Session.translate, hfind, hsame, Option.bind_some, h', Option.getD_some]

namespace Mirrors

variable (h : s.Mirrors t)

include h

lemma nameOf?_eq_none {id : SchemaId} : t.nameOf? id = none ↔ s.nameOf? id = none := by
  rw [Session.nameOf?_eq_none, Session.nameOf?_eq_none, h.schemas]

lemma exists_nameOf? {id : SchemaId} {name : String} (hname : s.nameOf? id = some name) :
    ∃ name', t.nameOf? id = some name' ∧ s.translate t name = name' := by
  cases hname' : t.nameOf? id with
  | none =>
    rw [h.nameOf?_eq_none.mp hname'] at hname
    cases hname
  | some name' => exact ⟨name', rfl, h.apart.translate hname hname'⟩

lemma translate_run (hs : Run env s s') (ht : Run env' t t') {name : String}
    (hname : name ∈ s.names) : s'.translate t' name = s.translate t name := by
  obtain ⟨entry, hentry, hfind, heq⟩ := find?_of_mem_names hname
  have hid : entry.1 ∈ t.types.map (·.1) := h.schemas ▸ List.mem_map_of_mem hentry
  have hsome : t.nameOf? entry.1 ≠ none := fun hnone => Session.nameOf?_eq_none.mp hnone hid
  obtain ⟨name', hname'⟩ := Option.ne_none_iff_exists'.mp hsome
  obtain ⟨more, hmore⟩ := hs.types_prefix
  have hfind' : s'.types.find? (·.2 == name) = some entry := by
    rw [← hmore, List.find?_append, hfind, Option.some_or]
  rw [translate, translate, hfind, hfind', Option.bind_some, Option.bind_some, hname',
    ht.nameOf? hname']

end Mirrors

/-- The second of two values is the first one with the names of the second session. -/
def Renamed {α : Type} [Renames α] (s t : Session) (a b : α) : Prop :=
  Renames.Over s.names a ∧ b = Renames.rename (s.translate t) a

namespace Renamed

variable {α : Type} [Renames α] {a b : α}

lemma run (h : Renamed s t a b) (hmirrors : s.Mirrors t) (hmirrors' : s'.Mirrors t')
    (hs : Run env s s') (ht : Run env' t t') : Renamed s' t' a b := by
  obtain ⟨hover, rfl⟩ := h
  refine ⟨Renames.over_mono hover hs.names_subset, Renames.rename_congr hover fun name hname => ?_⟩
  rcases hname with hname | hname
  · rw [hmirrors.keyword name hname, hmirrors'.keyword name hname]
  · rw [hmirrors.translate_run hs ht hname]

lemma nil : Renamed s t ([] : List α) [] := ⟨fun _ h => absurd h List.not_mem_nil, rfl⟩

lemma cons {as bs : List α} (h : Renamed s t a b) (hs : Renamed s t as bs) :
    Renamed s t (a :: as) (b :: bs) := by
  obtain ⟨hover, rfl⟩ := h
  obtain ⟨hovers, rfl⟩ := hs
  exact ⟨List.forall_mem_cons.mpr ⟨hover, hovers⟩, rfl⟩

lemma append {as bs as' bs' : List α} (h : Renamed s t as bs) (h' : Renamed s t as' bs') :
    Renamed s t (as ++ as') (bs ++ bs') := by
  obtain ⟨hover, rfl⟩ := h
  obtain ⟨hover', rfl⟩ := h'
  refine ⟨fun a ha => ?_, (List.map_append ..).symm⟩
  exact (List.mem_append.mp ha).elim (hover a) (hover' a)

lemma some (h : Renamed s t a b) : Renamed s t (some a) (some b) := by
  obtain ⟨hover, rfl⟩ := h
  refine ⟨?_, rfl⟩
  rintro _ ⟨⟩
  exact hover

lemma none : Renamed s t (none : Option α) none := ⟨by rintro _ ⟨⟩, rfl⟩

lemma name {id : SchemaId} {name name' : String} (hs : s.NamesApart)
    (h : s.nameOf? id = .some name) (h' : t.nameOf? id = .some name') : Renamed s t name name' :=
  ⟨mem_names h, (hs.translate h h').symm⟩

end Renamed

end Session

namespace SessionM

variable {α β : Type} {env env' : Environment} {s t : Session}
  {R : Session → Session → Prop} {F : Failure → Prop}

/-- The results are values that have `Q`, or the same failure, which has `F`. -/
def Alike (F : Failure → Prop) (Q : α → β → Prop) : Except Failure α → Except Failure β → Prop
  | .ok a, .ok b => Q a b
  | .error e, .error e' => e = e' ∧ F e
  | .ok _, .error _ | .error _, .ok _ => False

lemma Alike.imp {Q Q' : α → β → Prop} {x : Except Failure α} {y : Except Failure β}
    (h : Alike F Q x y) (hQ : ∀ a b, Q a b → Q' a b) : Alike F Q' x y := by
  cases x with
  | error e =>
    cases y with
    | error e' => exact h
    | ok b => exact h
  | ok a =>
    cases y with
    | error e' => exact h
    | ok b => exact hQ a b h

/-- The actions go by steps from the one pair of sessions to a related one and end alike. -/
structure InStep (R : Session → Session → Prop) (F : Failure → Prop) (env env' : Environment)
    (s t : Session) (x y : SessionM α) (Q : α → α → Session → Session → Prop) : Prop where
  first : Session.Run env s (x env s).2
  second : Session.Run env' t (y env' t).2
  related : R (x env s).2 (y env' t).2
  alike : Alike F (fun a b => Q a b (x env s).2 (y env' t).2) (x env s).1 (y env' t).1

namespace InStep

variable {x y : SessionM α} {f f' : α → SessionM β} {Q : α → α → Session → Session → Prop}
  {Q' : β → β → Session → Session → Prop}

lemma pure {a b : α} (hR : R s t) (hQ : Q a b s t) :
    InStep R F env env' s t (pure a) (pure b) Q :=
  ⟨.refl, .refl, hR, hQ⟩

lemma throw {e : Failure} (hR : R s t) (hF : F e) :
    InStep R F env env' s t (throw e) (throw e) Q :=
  ⟨.refl, .refl, hR, rfl, hF⟩

lemma cases (h : InStep R F env env' s t x y Q) :
    (∃ a b s' t', x env s = (.ok a, s') ∧ y env' t = (.ok b, t') ∧ Session.Run env s s' ∧
      Session.Run env' t t' ∧ R s' t' ∧ Q a b s' t') ∨
    ∃ e s' t', x env s = (.error e, s') ∧ y env' t = (.error e, t') ∧ Session.Run env s s' ∧
      Session.Run env' t t' ∧ R s' t' ∧ F e := by
  obtain ⟨hfirst, hsecond, hrelated, halike⟩ := h
  rcases hx : x env s with ⟨e | a, s'⟩
  all_goals
    rcases hy : y env' t with ⟨e' | b, t'⟩
    all_goals
      rw [hx, hy] at halike hrelated
      rw [hx] at hfirst
      rw [hy] at hsecond
  · obtain ⟨rfl, hF⟩ := halike
    exact .inr ⟨e, s', t', rfl, rfl, hfirst, hsecond, hrelated, hF⟩
  · exact halike.elim
  · exact halike.elim
  · exact .inl ⟨a, b, s', t', rfl, rfl, hfirst, hsecond, hrelated, halike⟩

lemma bind (hx : InStep R F env env' s t x y Q)
    (hf : ∀ a b s' t', Session.Run env s s' → Session.Run env' t t' → R s' t' → Q a b s' t' →
      InStep R F env env' s' t' (f a) (f' b) Q') :
    InStep R F env env' s t (x >>= f) (y >>= f') Q' := by
  rcases hx.cases with ⟨a, b, s', t', hx, hy, hs, ht, hR, hab⟩ | ⟨e, s', t', hx, hy, hs, ht, hR, hF⟩
  · obtain ⟨hfirst, hsecond, hrelated, halike⟩ := hf a b s' t' hs ht hR hab
    constructor
    case first =>
      rw [bind_ok hx]
      exact hs.trans hfirst
    case second =>
      rw [bind_ok hy]
      exact ht.trans hsecond
    all_goals rwa [bind_ok hx, bind_ok hy]
  · constructor
    all_goals simp only [bind_apply, hx, hy]
    · exact hs
    · exact ht
    · exact hR
    · exact ⟨rfl, hF⟩

lemma look {a b : α} (hx : x env s = (.ok a, s)) (hy : y env' t = (.ok b, t))
    (hf : InStep R F env env' s t (f a) (f' b) Q') :
    InStep R F env env' s t (x >>= f) (y >>= f') Q' := by
  obtain ⟨hfirst, hsecond, hrelated, halike⟩ := hf
  constructor
  all_goals first
    | rwa [bind_ok hx, bind_ok hy]
    | rwa [bind_ok hx]
    | rwa [bind_ok hy]

lemma still {a b : α} (hx : x env s = (.ok a, s)) (hy : y env' t = (.ok b, t)) (hR : R s t)
    (hQ : Q a b s t) : InStep R F env env' s t x y Q := by
  constructor
  case first => rw [hx]
  case second => rw [hy]
  all_goals
    rw [hx, hy]
    assumption

lemma discard (h : InStep R F env env' s t x y Q) :
    InStep R F env env' s t (discard x) (discard y) fun _ _ _ _ => True := by
  rw [discard_eq_bind, discard_eq_bind]
  exact h.bind fun _ _ _ _ _ _ hR _ => .pure hR trivial

lemma within {enter leave : Session → Session} (henter : Session.Step env s (enter s))
    (henter' : Session.Step env' t (enter t)) (hleave : ∀ u, Session.Step env u (leave u))
    (hleave' : ∀ u, Session.Step env' u (leave u)) (hR : ∀ u v, R u v → R (leave u) (leave v))
    (hx : InStep R F env env' (enter s) (enter t) x y Q)
    (hQ : ∀ a b u v, Q a b u v → Q a b (leave u) (leave v)) :
    InStep R F env env' s t (within enter leave x) (within enter leave y) Q := by
  refine ⟨?_, ?_, hR _ _ hx.related, hx.alike.imp fun a b => hQ a b _ _⟩
  · exact ((Relation.ReflTransGen.single henter).trans hx.first).tail (hleave _)
  · exact ((Relation.ReflTransGen.single henter').trans hx.second).tail (hleave' _)

end InStep

end SessionM

open Session SessionM

/-- A relation that keeps sessions in two environments side by side. Only what is defined is
prepared in them. -/
structure Bond (env env' : Environment) where
  related : Session → Session → Prop
  fails : Failure → Prop
  defined : SchemaId → Prop
  resolver : env'.resolver = env.resolver
  typescript : env'.typescript = env.typescript
  exhausted : fails .exhausted
  mirrors : ∀ {s t}, related s t → s.Mirrors t
  definitions : ∀ {s t}, related s t → ∀ owner, ∀ entry ∈ (s.graph.node owner).definitions,
    defined entry.2
  beginRegistration : ∀ {s t} id, related s t → id ∉ s.registering →
    related (s.beginRegistration id) (t.beginRegistration id)
  endRegistration : ∀ {s t} id, related s t → related (s.endRegistration id) (t.endRegistration id)
  beginExpansion : ∀ {s t} id hint, related s t →
    related (s.beginExpansion id hint) (t.beginExpansion id hint)
  endExpansion : ∀ {s t} id, related s t → related (s.endExpansion id) (t.endExpansion id)
  prepare : ∀ {s t definition}, related s t → defined definition →
    s.graph.isDefinitionType env.resolver.inlineNamedAny (s.graph.actual definition) →
    related (s.prepare (s.graph.actual definition)).2 (t.prepare (s.graph.actual definition)).2
  assign : ∀ {s t id} hint, related s t → s.nameOf? id = none →
    InStep related fails env env' s t (assign id hint) (assign id hint) fun _ _ _ _ => True

lemma Session.prepare_congr {s t : Session} (hgraph : t.graph = s.graph)
    (hprepared : t.prepared = s.prepared) (hwrappers : t.wrappers = s.wrappers) (id : SchemaId) :
    (t.prepare id).1 = (s.prepare id).1 ∧ (t.prepare id).2.graph = (s.prepare id).2.graph ∧
      (t.prepare id).2.prepared = (s.prepare id).2.prepared ∧
      (t.prepare id).2.wrappers = (s.prepare id).2.wrappers := by
  have hwrapper : t.wrapper? id = s.wrapper? id := by rw [wrapper?, wrapper?, hwrappers]
  unfold Session.prepare
  rw [hwrapper, hprepared, hgraph, hwrappers]
  split
  · exact ⟨rfl, hgraph, hprepared, hwrappers⟩
  · split
    · exact ⟨rfl, hgraph, hprepared, hwrappers⟩
    · simp only
      split
      · exact ⟨rfl, rfl, rfl, rfl⟩
      · exact ⟨rfl, rfl, rfl, rfl⟩

namespace Bond

variable {α β : Type} {env env' : Environment} {s t : Session} (b : Bond env env')

/-- In related sessions the actions end alike, in related sessions. -/
abbrev InStep (s t : Session) (x y : SessionM α) (Q : α → α → Session → Session → Prop) : Prop :=
  SessionM.InStep b.related b.fails env env' s t x y Q

/-- What the actions return differs in the names only. -/
abbrev Returns [Renames α] (s t : Session) (x y : SessionM α) : Prop :=
  b.InStep s t x y fun a a' s' t' => Session.Renamed s' t' a a'

variable {b} {f f' : Graph → SessionM β} {Q : β → β → Session → Session → Prop}

lemma graph (hR : b.related s t) (h : b.InStep s t (f s.graph) (f' s.graph) Q) :
    b.InStep s t (SessionM.graph >>= f) (SessionM.graph >>= f') Q := by
  refine .look graph_apply graph_apply ?_
  rwa [(b.mirrors hR).graph]

lemma dialect {f f' : Dialect → SessionM β}
    (h : b.InStep s t (f env.resolver.dialect) (f' env.resolver.dialect) Q) :
    b.InStep s t (SessionM.dialect >>= f) (SessionM.dialect >>= f') Q := by
  refine .look dialect_apply dialect_apply ?_
  rwa [b.resolver]

lemma isDefinitionType {f f' : Bool → SessionM β} {id : SchemaId} (hR : b.related s t)
    (h : b.InStep s t (f (s.graph.isDefinitionType env.resolver.inlineNamedAny id))
      (f' (s.graph.isDefinitionType env.resolver.inlineNamedAny id)) Q) :
    b.InStep s t (SessionM.isDefinitionType id >>= f) (SessionM.isDefinitionType id >>= f') Q := by
  refine .look (isDefinitionType_apply id) (isDefinitionType_apply id) ?_
  rwa [(b.mirrors hR).graph, b.resolver]

lemma assign_returns (id : SchemaId) (hint : Option String) (hR : b.related s t) :
    b.Returns s t (SessionM.assign id hint) (SessionM.assign id hint) := by
  have hmirrors := b.mirrors hR
  cases hname : s.nameOf? id with
  | some name =>
    obtain ⟨name', hname', htranslate⟩ := hmirrors.exists_nameOf? hname
    exact .still (assign_named hname hint) (assign_named hname' hint) hR
      (.name hmirrors.apart hname hname')
  | none =>
    have hassign := b.assign hint hR hname
    have hfirst : Leads env s (SessionM.assign id hint) _ := assign_leads id hint
    have hsecond : Leads env' t (SessionM.assign id hint) _ := assign_leads id hint
    rcases hassign.cases with ⟨a, a', s', t', hx, hy, _, _, hR', _⟩ |
      ⟨e, s', t', hx, hy, _, _, _, hF⟩
    · refine ⟨hassign.first, hassign.second, hassign.related, ?_⟩
      have hname := hfirst.2 a (by rw [hx])
      have hname' := hsecond.2 a' (by rw [hy])
      rw [hx] at hname ⊢
      rw [hy] at hname' ⊢
      exact .name (b.mirrors hR').apart hname hname'
    · refine ⟨hassign.first, hassign.second, hassign.related, ?_⟩
      rw [hx, hy]
      exact ⟨rfl, hF⟩

lemma prepare_inStep {definition : SchemaId} (hR : b.related s t) (hdefined : b.defined definition)
    (hdef : s.graph.isDefinitionType env.resolver.inlineNamedAny (s.graph.actual definition)) :
    b.InStep s t (SessionM.prepare (s.graph.actual definition))
      (SessionM.prepare (s.graph.actual definition))
      fun target target' _ _ => target' = target := by
  have hmirrors := b.mirrors hR
  refine ⟨?_, ?_, ?_, ?_⟩
  · exact (prepare_leads hdef).1
  · refine (prepare_leads ?_).1
    rwa [hmirrors.graph, b.resolver]
  · exact b.prepare hR hdefined hdef
  · exact (prepare_congr hmirrors.graph hmirrors.prepared hmirrors.wrappers _).1

section

variable {name : SchemaId → Option String → SessionM String}
  (hname : ∀ id hint s t, b.related s t → b.Returns s t (name id hint) (name id hint))

include hname

lemma registerEach_inStep {definitions : List (String × SchemaId)} (hR : b.related s t)
    (hdefined : ∀ entry ∈ definitions, b.defined entry.2) :
    b.InStep s t (registerEach name definitions) (registerEach name definitions)
      fun _ _ _ _ => True := by
  induction definitions generalizing s t with
  | nil => exact .pure hR trivial
  | cons entry rest ih =>
    obtain ⟨key, definition⟩ := entry
    obtain ⟨hdefinition, hrest⟩ := List.forall_mem_cons.mp hdefined
    refine graph hR (isDefinitionType hR ?_)
    split
    · rename_i hdef
      refine (prepare_inStep hR hdefinition hdef).bind fun target target' s' t' _ _ hR' heq => ?_
      rw [heq]
      refine (hname target (some key) s' t' hR').discard.bind fun _ _ _ _ _ _ hR'' _ => ?_
      exact ih hR'' hrest
    · exact ih hR hrest

end

lemma typeNameWithin_returns (depth : ℕ) (id : SchemaId) (hint : Option String)
    (hR : b.related s t) :
    b.Returns s t (typeNameWithin depth id hint) (typeNameWithin depth id hint) := by
  induction depth generalizing id hint s t with
  | zero => exact .throw hR b.exhausted
  | succ depth ih =>
    have hmirrors := b.mirrors hR
    refine .look get_apply get_apply ?_
    simp only [hmirrors.graph, hmirrors.registering]
    cases hname : s.nameOf? (s.graph.actual (s.graph.removeNullability id)) with
    | some name =>
      obtain ⟨name', hname', _⟩ := hmirrors.exists_nameOf? hname
      simp only [hname']
      exact .pure hR (.name hmirrors.apart hname hname')
    | none =>
      simp only [hmirrors.nameOf?_eq_none.mpr hname]
      split
      · rename_i hfree
        have hnot := by simpa using hfree
        refine InStep.bind (Q := fun _ _ _ _ => True) ?_ fun _ _ _ _ _ _ hR' _ => ?_
        · refine .within (.beginRegistration _ hnot) (.beginRegistration _ ?_)
            (fun _ => .endRegistration _) (fun _ => .endRegistration _)
            (fun _ _ => b.endRegistration _) ?_ fun _ _ _ _ h => h
          · rwa [hmirrors.registering]
          · exact registerEach_inStep (fun id hint _ _ hR => ih id hint hR)
              (b.beginRegistration _ hR hnot) (b.definitions hR _)
        · exact assign_returns _ hint hR'
      · exact assign_returns _ hint hR

lemma typeName_returns (id : SchemaId) (hint : Option String) (hR : b.related s t) :
    b.Returns s t (typeName id hint) (typeName id hint) :=
  graph hR (typeNameWithin_returns _ id hint hR)

lemma register_inStep {definitions : List (String × SchemaId)} (hR : b.related s t)
    (hdefined : ∀ entry ∈ definitions, b.defined entry.2) :
    b.InStep s t (register definitions) (register definitions) fun _ _ _ _ => True :=
  registerEach_inStep (fun id hint _ _ hR => typeName_returns id hint hR) hR hdefined

end Bond

end SchemaTypes
