import SchemaTypes.Proofs.TypeScript.Recollection

/-! Declarations that are rendered again. Each of them shows the session as it is in the end, unless
a list or dictionary was spelled out before it got a name for something else than a usage, or a
definition was prepared in between. -/

namespace SchemaTypes

open Session

namespace SessionM

variable {α β ι : Type} {env : Environment} {r t u v w : Session} {F : Set SchemaId}
  {id : SchemaId} {resolver : Resolver} {hint : Option String}

namespace Answers

lemma container_named {name : String} (h : v.nameOf? id = some name) :
    Answers env F v (resolveContainer resolver id hint) (.ident name) :=
  fun _ hw => .inl (resolveContainer_named (hw.names id name h))

/-- What is spelled out in a list or dictionary when it is entered, is so where it is used. -/
lemma container_entered {e : TypeExpr} (h : Answers env F v (spellContainer resolver id) e)
    (hid : id ∉ F) : Answers env (insert id F) v (resolveContainer resolver id hint) e := by
  intro w hw
  obtain ⟨hname, hunnamed⟩ := Set.forall_mem_insert.mp hw.unnamed
  obtain ⟨hnot, hclosed⟩ := Set.forall_mem_insert.mp hw.closed
  have hbody : Resembles F v w := ⟨hw.graph, hw.wrappers, hw.names, hunnamed, hclosed⟩
  refine Returns.congr ?_ (resolveContainer_entered hname (Entries.lookup_eq_none.mpr hnot))
  refine (h.expansion hid hbody hnot).bind (.inl ?_)
  rw [namedOr, bind_ok get_apply]
  simp only [hname, pure_apply]

end Answers

section

variable (hcalm : Undisturbed env r t)

include hcalm

section

variable {depth : ℕ} (hresolve : ∀ id nullable hint,
  Recalls env r t (resolveWithin depth id nullable hint) fun depth =>
    resolveWithin depth id nullable hint)

include hresolve

/-- A list or dictionary that is entered and still has no name in the end is remembered. -/
lemma entered_recalls (hid : (r.graph.node id).isSpelledOut) {e : TypeExpr} (hu : Run env r u)
    (hname : u.nameOf? id = none) (houter : u.expanding.lookup id = none) (hmem : id ∉ F)
    (hF : u.Remembers env F)
    (h : resolveContainer (resolveWithin depth) id hint env u = (.ok e, v)) (ht : Run env v t) :
    v.expanding = u.expanding ∧ ∃ F', F ⊆ F' ∧ v.Remembers env F' ∧
      ∀ depth, Answers env F' v (resolveContainer (resolveWithin depth) id hint) e := by
  have hasks : Asks resolveWithin fun depth => spellContainer (resolveWithin depth) id :=
    .spellContainer id
  have hspell := hasks.recalls hcalm depth hresolve
  have hnot : id ∉ u.expanding.map (·.1) := Entries.lookup_eq_none.mp houter
  have hrun := (resolveContainer_spells (s := u)
    (fun id nullable hint _ => resolveWithin_spells depth id nullable hint) id hint).result h
  rw [resolveContainer_entered hname houter] at h
  obtain ⟨e', v', hwithin, hnamed⟩ := bind_eq_ok h
  obtain ⟨rfl, hresult⟩ := namedOr_eq_ok hnamed
  obtain ⟨hsame, F', hsub, hopen, hF', hanswers⟩ :=
    hspell.expansion hcalm hu hwithin ht hF hmem hnot
  refine ⟨hsame, ?_⟩
  rcases hresult with ⟨name, hgot, rfl⟩ | ⟨hnone, rfl⟩
  · exact ⟨F', hsub, hF', fun depth => .container_named hgot⟩
  · have hentered (depth : ℕ) (hint : Option String) :
        Answers env (insert id F') v (resolveContainer (resolveWithin depth) id hint) e :=
      (hanswers depth).container_entered hopen
    refine ⟨insert id F', hsub.trans (Set.subset_insert id F'), hF'.insert ?_ hnone ?_ hentered,
      fun depth => hentered depth hint⟩
    · rwa [(hcalm.still (hu.trans hrun.1) ht).1]
    · rwa [hsame]

lemma resolveContainer_recalls (hid : (r.graph.node id).isSpelledOut) (hint : Option String) :
    Recalls env r t (resolveContainer (resolveWithin depth) id hint) fun depth =>
      resolveContainer (resolveWithin depth) id hint := by
  refine ⟨fun u => (resolveContainer_spells
    (fun id nullable hint _ => resolveWithin_spells depth id nullable hint) id hint).1, ?_⟩
  intro u e v F hu h ht hF
  cases hname : u.nameOf? id with
  | some name =>
    rw [resolveContainer_named hname] at h
    cases h
    exact ⟨rfl, F, subset_rfl, hF, fun _ => .container_named hname⟩
  | none =>
    cases houter : u.expanding.lookup id with
    | some outer =>
      rw [resolveContainer_inside hname houter] at h
      obtain ⟨name, v', hnamed, hpure⟩ := bind_eq_ok h
      cases hpure
      obtain ⟨huv, hgot⟩ := (typeName_leads id _).result hnamed
      have hcarrier : u.graph.carrier id = id := by
        rw [(hcalm.still hu (huv.trans ht)).1]
        exact hcalm.own id hid
      have hopen : id ∉ F := fun hmem => hF.closed id hmem (by
        by_contra hnot
        rw [Entries.lookup_eq_none.mpr hnot] at houter
        cases houter)
      rw [hcarrier] at hgot
      refine ⟨expanding_of_typeName hnamed, F, subset_rfl,
        hF.named hcalm hu hnamed ht fun hmem => ?_, fun _ => .container_named hgot⟩
      rw [hcalm.own id hid] at hmem
      exact absurd hmem hopen
    | none =>
      by_cases hmem : id ∈ F
      · -- It has been spelled out before.
        obtain ⟨e', hanswers⟩ := hF.answers id hmem
        obtain ⟨rfl, rfl⟩ := (hanswers depth hint u hF.resembles).eq h
        exact ⟨rfl, F, subset_rfl, hF, fun depth => hanswers depth hint⟩
      · exact entered_recalls hcalm hresolve hid hu hname houter hmem hF h ht

lemma resolveBare_recalls (id : SchemaId) (hint : Option String) :
    Recalls env r t (resolveBare (resolveWithin depth) id hint) fun depth =>
      resolveBare (resolveWithin depth) id hint := by
  refine .get hcalm ?_ (fun u => (resolveBare_spells
    (fun id nullable hint _ => resolveWithin_spells depth id nullable hint) id hint).1)
    fun s hgraph hwrappers => by simp only [wrapper?, hgraph, hwrappers, and_self]
  refine .bind hcalm (.still (fun _ => rfl) fun _ _ _ _ => rfl) fun settings => ?_
  simp only
  cases hwrapper : r.wrapper? (r.graph.actual
      (r.graph.resolvable settings.resolver.inlineNamedAny id)) with
  | some wrapper =>
    have hlasting := hcalm.registered wrapper (.inr ⟨_, hwrapper⟩)
    exact .bind hcalm (.named hcalm hint hlasting) fun _ => .pure _
  | none =>
    simp only
    split
    · exact .pure _
    · rename_i hany
      split
      · rename_i hnamed
        have hlasting : Lasting r t (r.graph.carrier id) := fun hspelled => by
          rw [Graph.not_isSpelledOut_of_usage hnamed] at hspelled
          cases hspelled
        exact .bind hcalm (.named hcalm hint hlasting) fun _ => .pure _
      · rename_i hnamed
        split
        · rename_i hcontainer
          refine resolveContainer_recalls hcalm hresolve ?_ hint
          exact Graph.isSpelledOut_of_usage (by simpa using hany) (by simpa using hnamed) hcontainer
        · exact (Asks.resolvePlain _).recalls hcalm depth hresolve

end

lemma resolveWithin_recalls (depth : ℕ) (id : SchemaId) (nullable : Bool) (hint : Option String) :
    Recalls env r t (resolveWithin depth id nullable hint) fun depth =>
      resolveWithin depth id nullable hint := by
  induction depth generalizing id nullable hint with
  | zero => exact .throw _
  | succ depth ih =>
    refine .deepen (.bind hcalm (resolveBare_recalls hcalm ih id hint) fun e => ?_) rfl
    exact (Asks.spellNullable nullable e).recalls hcalm depth ih

lemma resolve_recalls (id : SchemaId) (nullable : Bool) (hint : Option String) :
    Recalls env r t (SessionM.resolve id nullable hint) fun _ : Unit =>
      SessionM.resolve id nullable hint :=
  .graph hcalm ((resolveWithin_recalls hcalm _ id nullable hint).reindex fun _ => _)
    fun _ => (resolve_spells id nullable hint).1

lemma asks_recalls {x : SessionM α} (hx : Asks (fun _ : Unit => SessionM.resolve) fun _ => x) :
    Recalls env r t x fun _ : Unit => x :=
  hx.recalls hcalm () fun id nullable hint => resolve_recalls hcalm id nullable hint

omit hcalm in
lemma collectParts_run (parts : Parts) (ids : List SchemaId) (u : Session) :
    Run env u (collectParts parts ids env u).2 := by
  suffices h : Leads env u (collectParts parts ids) fun _ _ => True from h.1
  induction ids generalizing parts u with
  | nil => exact .pure trivial
  | cons id rest ih =>
    refine .look graph_apply ?_
    simp only
    split
    · exact (typeName_leads id none).bind fun _ v _ _ => ih _ v
    · exact ih _ u

lemma collectParts_recalls (parts : Parts) {ids : List SchemaId}
    (hids : ∀ id ∈ ids, r.graph.isReference id → Lasting r t (r.graph.carrier id)) :
    Recalls env r t (collectParts parts ids) fun _ : Unit => collectParts parts ids := by
  induction ids generalizing parts with
  | nil => exact .pure _
  | cons id rest ih =>
    obtain ⟨hid, hrest⟩ := List.forall_mem_cons.mp hids
    refine .graph hcalm ?_ fun u => collectParts_run parts (id :: rest) u
    simp only
    split
    · rename_i href
      exact .bind hcalm (.named hcalm none (hid href)) fun _ => ih _ hrest
    · exact ih _ hrest

lemma declareInterface_recalls (id : SchemaId) (name : String) :
    Recalls env r t (declareInterface id name) fun _ : Unit => declareInterface id name := by
  refine .graph hcalm ?_ fun u => (declareInterface_declares id name).1
  refine .bind hcalm (collectParts_recalls hcalm _ (hcalm.parts id)) fun parts => ?_
  refine .bind hcalm (asks_recalls hcalm (.declareFields (fun _ => rfl) _ _ _)) fun fields => ?_
  exact .pure _

end

/-- What the action returns from `u` on, it returns again at `t`. -/
def Repeats (env : Environment) (t u : Session) (x : SessionM α) : Prop :=
  ∀ a v F, x env u = (.ok a, v) → Run env v t → u.Remembers env F →
    v.expanding = u.expanding ∧ ∃ F', F ⊆ F' ∧ v.Remembers env F' ∧
      (Resembles F' v t → Returns env t x a)

namespace Repeats

lemma of_recalls {x : SessionM α} (h : Recalls env r t x fun _ : Unit => x) (hu : Run env r u) :
    Repeats env t u x := by
  intro a v F hx ht hF
  obtain ⟨hsame, F', hsub, hF', hanswers⟩ := h.recalled hu hx ht hF
  exact ⟨hsame, F', hsub, hF', hanswers () t⟩

lemma pure (a : α) : Repeats env t u (pure a) := by
  intro b v F hx _ hF
  cases hx
  exact ⟨rfl, F, subset_rfl, hF, fun _ => .inl rfl⟩

lemma map {x : SessionM α} {f : α → β} (h : Repeats env t u x) :
    Repeats env t u (x >>= fun a => Pure.pure (f a)) := by
  intro b v F hx ht hF
  obtain ⟨a, v', hxu, hpure⟩ := bind_eq_ok hx
  cases hpure
  obtain ⟨hsame, F', hsub, hF', hagain⟩ := h a v F hxu ht hF
  exact ⟨hsame, F', hsub, hF', fun hw => (hagain hw).bind (.inl rfl)⟩

lemma get {f : Session → SessionM α} (h : Repeats env t u (f u)) (hf : f t = f u) :
    Repeats env t u (MonadState.get >>= f) := by
  intro a v F hx ht hF
  obtain ⟨hsame, F', hsub, hF', hagain⟩ := h a v F hx ht hF
  refine ⟨hsame, F', hsub, hF', fun hw => (hagain hw).congr ?_⟩
  rw [bind_ok get_apply, hf]

end Repeats

section

variable (hcalm : Undisturbed env r t) (hidle : t.expanding = [])

include hcalm hidle

lemma aliasTarget_repeats (hu : Run env r u) (hname : u.nameOf? id ≠ none)
    (hnot : id ∉ u.expanding.map (·.1)) : Repeats env t u (aliasTarget id) := by
  intro e v F h ht hF
  have hasks : Asks (fun _ => SessionM.resolve) fun _ : Unit =>
      spellContainer SessionM.resolve id := .spellContainer id
  have hspell := asks_recalls hcalm hasks
  have hmem : id ∉ F := fun hmem => hname (hF.unnamed id hmem)
  obtain ⟨hsame, F', hsub, hopen, hF', hanswers⟩ := hspell.expansion hcalm hu h ht hF hmem hnot
  refine ⟨hsame, F', hsub, hF', fun hw => (hanswers ()).expansion hopen hw ?_⟩
  rw [hidle]
  exact List.not_mem_nil

lemma declare_repeats (hu : Run env r u) (hut : Run env u t) (hname : u.nameOf? id ≠ none)
    (hnot : id ∉ u.expanding.map (·.1)) (name : String) :
    Repeats env t u (declare id name) := by
  have hsame := hcalm.resembles hu hut .refl
  have hchoice (choice : Choice) : Repeats env t u (declareChoice choice) :=
    .of_recalls (asks_recalls hcalm (.declareChoice (fun _ => rfl) choice)) hu
  refine .get ?_ (by simp only [wrapped?, hsame.graph, hsame.wrappers])
  simp only
  split
  · exact hchoice _
  · split
    · exact hchoice _
    · split
      · exact .pure _
      · split
        · exact .map (aliasTarget_repeats hcalm hidle hu hname hnot)
        · split
          · exact .pure _
          · exact .of_recalls (declareInterface_recalls hcalm id name) hu

lemma declarationsWithin_repeats {bound position : ℕ} {ds : List Declaration} (hu : Run env r u)
    (hexpanding : u.expanding = []) (hF : u.Remembers env F)
    (h : declarationsWithin bound position env u = (.ok ds, t)) :
    ∃ F', F ⊆ F' ∧ t.Remembers env F' ∧
      ∀ bound, Returns env t (declarationsWithin bound position) ds := by
  induction bound generalizing u position ds F with
  | zero => cases h
  | succ bound ih =>
    cases hentry : u.types[position]? with
    | none =>
      rw [declarationsWithin_past hentry] at h
      cases h
      refine ⟨F, subset_rfl, hF, fun bound => ?_⟩
      cases bound with
      | zero => exact .inr rfl
      | succ bound => exact .inl (declarationsWithin_past hentry)
    | some entry =>
      obtain ⟨id, name⟩ := entry
      obtain ⟨decl, v, rest, hdeclare, hwithin, rfl, hfirst, hlater⟩ :=
        declarationsWithin_eq_ok hentry h
      have hname : u.nameOf? id ≠ none := nameOf?_ne_none (List.mem_of_getElem? hentry)
      obtain ⟨hsame, F₁, hsub, hF₁, hagain⟩ := declare_repeats hcalm hidle hu
        (hfirst.trans hlater) hname (by rw [hexpanding]; exact List.not_mem_nil) name decl v F
        hdeclare hlater hF
      obtain ⟨F₂, hsub', hF₂, hothers⟩ := ih (hu.trans hfirst) (hsame.trans hexpanding) hF₁ hwithin
      have hvisible := hcalm.resembles (hu.trans hfirst) hlater .refl
      have hdeclared := hagain (hvisible.from hF₂.resembles hsub')
      refine ⟨F₂, hsub.trans hsub', hF₂, fun bound => ?_⟩
      cases bound with
      | zero => exact .inr rfl
      | succ bound =>
        have hentry' : t.types[position]? = some (id, name) := by
          have hrun : Run env u t := hfirst.trans hlater
          obtain ⟨more, heq⟩ := hrun.types_prefix
          rw [← heq, List.getElem?_append_left (List.getElem?_eq_some_iff.mp hentry).1, hentry]
        exact Returns.congr (hdeclared.bind ((hothers bound).bind (.inl rfl)))
          (declarationsWithin_at hentry')

lemma emit_repeats {content : String} (hstart : r.expanding = [])
    (h : SessionM.emit env r = (.ok content, t)) : Returns env t SessionM.emit content := by
  rw [SessionM.emit, bind_ok read_apply] at h
  obtain ⟨ds, t', hds, hpure⟩ := bind_eq_ok h
  cases hpure
  rw [declarations, bind_ok graph_apply] at hds
  have hnothing : r.Remembers env ∅ := ⟨by simp, by simp, by simp, by simp⟩
  obtain ⟨_, _, _, hagain⟩ :=
    declarationsWithin_repeats hcalm hidle .refl hstart hnothing hds
  have hdeclarations : Returns env t declarations ds :=
    (hagain (2 * t.graph.size + 2)).congr (bind_ok graph_apply)
  exact Returns.congr (hdeclarations.bind (.inl rfl)) (bind_ok read_apply)

end

end SessionM

lemma Session.Extends.not_isSpelledOut {g : Graph} {s : Session} {id wrapper : SchemaId}
    (hs : s.Extends g) (h : s.wrapper? id = some wrapper) :
    ¬(s.graph.node wrapper).isSpelledOut := by
  have hnode : g.node wrapper = {} :=
    Graph.node_of_size_le (hs.wrapper_range (hs.wrapper?_eq_some.mp h)).1
  have hgrows := hs.grows wrapper
  rw [hnode] at hgrows
  rw [Node.isSpelledOut, hgrows.isArray, hgrows.isDictionary]
  simp [Node.isArray, Node.isDictionary, Node.isObject, Node.hasType]

namespace Document

open SessionM

variable {text content : String} {d : Document} {env : Environment} {r s : Session}

/-- Before and after it is emitted, a registered document has nothing under way. -/
lemma emit_idle (hload : ofJson text = .ok d ∨ ofYaml text = .ok d)
    (hregister : d.register env { graph := d.graph } = (.ok (), r)) :
    Run env { graph := d.graph } r ∧ r.Idle d.graph ∧ Ends env r SessionM.emit ∧
      ∀ t, SessionM.emit env r = (.ok content, t) →
        t.Idle d.graph ∧ Ends env t SessionM.emit := by
  obtain ⟨root, hrepresents⟩ := represents_of_load hload
  obtain ⟨rank, hrank⟩ := hrepresents.exists_ranked
  have hstart : Idle d.graph { graph := d.graph } := .start hrepresents.closed
  have hroot : d.root < d.graph.size := by
    rw [hrepresents.root_eq]
    exact hrepresents.size_pos
  have hbefore : Balanced env { graph := d.graph } r := by
    have hends : Ends env { graph := d.graph } d.register :=
      register_ends hstart.ready.extends_graph hroot hrepresents.closed
    rw [Ends, hregister] at hends
    exact hends.1
  have hidle := hstart.after hbefore
  have hends {t : Session} (ht : t.Idle d.graph) : Ends env t SessionM.emit :=
    SessionM.emit_ends hrank ht.ready ht.apart ht.named
  refine ⟨hbefore.run, hidle, hends hidle, fun t hemit => ?_⟩
  have hafter := hends hidle
  rw [Ends, hemit] at hafter
  exact ⟨hidle.after hafter.1, hends (hidle.after hafter.1)⟩

/-- A second emission gives the same text and changes nothing, if the first one has prepared nothing
and has named no list or dictionary that it may have spelled out before: a list or dictionary is its
own carrier, so that it gets the name when it is found inside itself, and none gets its first name as
a part of an interface or as what a definition stands for. -/
theorem emitted_again (hload : ofJson text = .ok d ∨ ofYaml text = .ok d)
    (hregister : d.register env { graph := d.graph } = (.ok (), r))
    (hemit : SessionM.emit env r = (.ok content, s)) (hgraph : s.graph = r.graph)
    (hown : ∀ id < r.graph.size, (r.graph.node id).isSpelledOut → r.graph.carrier id = id)
    (hparts : ∀ owner < r.graph.size, ∀ id ∈ (r.graph.node owner).allOf, r.graph.isReference id →
      Lasting r s (r.graph.carrier id))
    (hdefinitions : ∀ owner < r.graph.size, ∀ entry ∈ (r.graph.node owner).definitions,
      r.graph.isDefinitionType env.resolver.inlineNamedAny (r.graph.actual entry.2) →
        Lasting r s (r.graph.carrier (r.graph.actual entry.2))) :
    SessionM.emit env s = (.ok content, s) := by
  obtain ⟨hrun, hidle, _, hafter⟩ := emit_idle hload hregister
  obtain ⟨hidle', hends⟩ := hafter s hemit
  have hcalm : Undisturbed env r s := by
    refine ⟨hgraph, fun id hid => hown id (Graph.lt_of_isSpelledOut hid) hid, ?_, ?_⟩
    · intro owner id hid href
      refine hparts owner ?_ id hid href
      by_contra hge
      rw [Graph.node_of_size_le (Nat.le_of_not_lt hge)] at hid
      cases hid
    · intro id hid
      rcases hid with ⟨owner, entry, hentry, rfl, hdef⟩ | ⟨base, hwrapper⟩
      · refine hdefinitions owner ?_ entry hentry hdef
        by_contra hge
        rw [Graph.node_of_size_le (Nat.le_of_not_lt hge)] at hentry
        cases hentry
      · rw [(hrun.plainWrappers (.start d.graph)).carrier hwrapper]
        exact fun hspelled => absurd hspelled
          (hidle.ready.extends_graph.not_isSpelledOut hwrapper)
  rcases emit_repeats hcalm hidle'.ready.expanding hidle.ready.expanding hemit with h | h
  · exact h
  · exact absurd h hends.2

/-- Two lists of each other, both of which are used. -/
def mutualListsText : String :=
  "\x7b\"$defs\":\x7b\"L\":\x7b\"type\":\"array\",\"items\":\x7b\"$ref\":\"#/$defs/M\"\x7d\x7d," ++
    "\"M\":\x7b\"type\":\"array\",\"items\":\x7b\"$ref\":\"#/$defs/L\"\x7d\x7d\x7d," ++
    "\"properties\":\x7b\"m\":\x7b\"$ref\":\"#/$defs/M\"\x7d,\"l\":\x7b\"$ref\":\"#/$defs/L\"\x7d\x7d\x7d"

/-- All that the theorem asks of the lists, and that the second one gets its name while the document
is emitted. -/
def MutualListsEmitted (d : Document) : Prop :=
  let registered := d.register (.ofSettings {}) { graph := d.graph }
  let r := registered.2
  let emitted := SessionM.emit (.ofSettings {}) r
  let s := emitted.2
  registered.1 = .ok () ∧ (∃ content, emitted.1 = .ok content ∧ True) ∧ r.graph.size = 7 ∧
    s.graph.size = 7 ∧
    (∀ id < 7, (s.graph.node id).enumeration.length ≤ (r.graph.node id).enumeration.length) ∧
    (∀ id < 7, (r.graph.node id).isSpelledOut → r.graph.carrier id = id) ∧
    (∀ owner < 7, ∀ id ∈ (r.graph.node owner).allOf, r.graph.isReference id →
      Lasting r s (r.graph.carrier id)) ∧
    (∀ owner < 7, ∀ entry ∈ (r.graph.node owner).definitions,
      r.graph.isDefinitionType false (r.graph.actual entry.2) →
        Lasting r s (r.graph.carrier (r.graph.actual entry.2))) ∧
    r.nameOf? 2 = none ∧ s.nameOf? 2 = some "M" ∧ s.nameOf? 1 = none

instance (d : Document) : Decidable d.MutualListsEmitted :=
  inferInstanceAs (Decidable (_ ∧ _ ∧ _ ∧ _ ∧ _ ∧ _ ∧ _ ∧ _ ∧ _ ∧ _ ∧ _))

lemma mutualLists_emitted : ∃ d, ofJson mutualListsText = .ok d ∧ d.MutualListsEmitted := by
  decide +kernel

theorem mutualLists_emitted_again :
    ∃ d r s content, ofJson mutualListsText = .ok d ∧
      d.register (.ofSettings {}) { graph := d.graph } = (.ok (), r) ∧
      SessionM.emit (.ofSettings {}) r = (.ok content, s) ∧
      r.nameOf? 2 = none ∧ s.nameOf? 2 = some "M" ∧ s.nameOf? 1 = none ∧
      SessionM.emit (.ofSettings {}) s = (.ok content, s) := by
  obtain ⟨d, hload, hregister, ⟨content, hemit, _⟩, hsize, hsize', hmembers, hown, hparts,
    hdefinitions, hbefore, hname, hinline⟩ := mutualLists_emitted
  generalize hr : (d.register (.ofSettings {}) { graph := d.graph }).2 = r at *
  generalize hs : (SessionM.emit (.ofSettings {}) r).2 = s at *
  have hregister' : d.register (.ofSettings {}) { graph := d.graph } = (.ok (), r) :=
    Prod.ext hregister hr
  have hemit' : SessionM.emit (.ofSettings {}) r = (.ok content, s) := Prod.ext hemit hs
  have hrun : Run (.ofSettings {}) r s := (SessionM.emit_leads.result hemit').1
  have hstill : s.graph = r.graph := by
    refine (hrun.still_or_moved.resolve_right fun hmoved => ?_).1
    rcases hmoved with hlt | ⟨id, hlt⟩
    · omega
    · by_cases hid : id < 7
      · exact absurd (hmembers id hid) (Nat.not_le.mpr hlt)
      · have hnode (u : Session) (hu : u.graph.size = 7) : u.graph.node id = {} :=
          Graph.node_of_size_le (hu ▸ Nat.le_of_not_lt hid)
        rw [hnode r hsize, hnode s hsize'] at hlt
        exact Nat.lt_irrefl _ hlt
  rw [← hsize] at hown hparts hdefinitions
  have hagain := emitted_again (.inl hload) hregister' hemit' hstill hown hparts hdefinitions
  exact ⟨d, r, s, content, hload, hregister', hemit', hbefore, hname, hinline, hagain⟩

/-- A list that is a part of an interface. -/
def partListText : String :=
  "\x7b\"$defs\":\x7b\"A\":\x7b\"type\":\"array\"\x7d\x7d,\"properties\":\x7b" ++
    "\"a\":\x7b\"$ref\":\"#/$defs/A\"\x7d," ++
    "\"b\":\x7b\"type\":\"object\",\"allOf\":[\x7b\"$ref\":\"#/$defs/A\"\x7d]\x7d\x7d\x7d"

/-- A list that a definition in a property stands for. -/
def nestedListText : String :=
  "\x7b\"$defs\":\x7b\"A\":\x7b\"type\":\"array\"\x7d\x7d,\"properties\":\x7b" ++
    "\"a\":\x7b\"$ref\":\"#/$defs/A\"\x7d,\"p\":\x7b\"type\":\"object\"," ++
    "\"additionalProperties\":false,\"$defs\":\x7b\"N\":\x7b\"oneOf\":[" ++
    "\x7b\"$ref\":\"#/$defs/A\"\x7d]\x7d\x7d\x7d\x7d\x7d"

/-- Two lists of each other, of which one is named by its only alternative. -/
def strippedListText : String :=
  "\x7b\"$defs\":\x7b\"C\":\x7b\"type\":\"array\",\"items\":\x7b\"$ref\":\"#/$defs/D\"\x7d," ++
    "\"oneOf\":[\x7b\x7d]\x7d,\"D\":\x7b\"type\":\"array\",\"items\":" ++
    "\x7b\"$ref\":\"#/$defs/C\"\x7d\x7d\x7d,\"properties\":\x7b" ++
    "\"c\":\x7b\"$ref\":\"#/$defs/C\"\x7d,\"d\":\x7b\"$ref\":\"#/$defs/D\"\x7d\x7d\x7d"

/-- A choice in a property, which makes a subtype of a schema that is declared before. -/
def lateChoiceText : String :=
  "\x7b\"$defs\":\x7b\"D\":\x7b\x7d\x7d,\"properties\":\x7b\"p\":\x7b\"type\":\"object\"," ++
    "\"additionalProperties\":false,\"$defs\":\x7b\"S\":\x7b\"discriminator\":" ++
    "\x7b\"propertyName\":\"k\"\x7d,\"oneOf\":[\x7b\"$ref\":\"#/$defs/D\"\x7d]" ++
    "\x7d\x7d\x7d\x7d\x7d"

/-- Two emissions give different texts. -/
def EmitsApart (d : Document) (env : Environment) : Prop :=
  let registered := d.register env { graph := d.graph }
  let first := SessionM.emit env registered.2
  let second := SessionM.emit env first.2
  registered.1 = .ok () ∧ ∃ content, first.1 = .ok content ∧
    ∃ content', second.1 = .ok content' ∧ content ≠ content'

instance (d : Document) (env : Environment) : Decidable (d.EmitsApart env) :=
  inferInstanceAs (Decidable (_ ∧ _))

/-- None of the conditions can be left out. -/
theorem emitted_apart :
    (∃ d, ofJson partListText = .ok d ∧ d.EmitsApart (.ofSettings {})) ∧
      (∃ d, ofJson nestedListText = .ok d ∧ d.EmitsApart (.ofSettings {})) ∧
      (∃ d, ofJson strippedListText = .ok d ∧ d.EmitsApart (.ofSettings {})) ∧
      ∃ d, ofJson lateChoiceText = .ok d ∧ d.EmitsApart (.ofSettings {}) := by
  refine ⟨?_, ?_, ?_, ?_⟩
  · decide +kernel
  · decide +kernel
  · decide +kernel
  · decide +kernel

end Document

end SchemaTypes
