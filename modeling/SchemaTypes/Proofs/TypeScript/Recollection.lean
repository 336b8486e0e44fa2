import SchemaTypes.Proofs.Session.Namings
import SchemaTypes.Proofs.TypeScript.Asking
import SchemaTypes.Proofs.TypeScript.Replay

/-! Usages that are spelled again at a later time, when more schemas have names. A list or
dictionary that has once been spelled out to its end without getting a name gets none from usages
any more, so that it is spelled in the same way for good. -/

namespace SchemaTypes

/-- A list or dictionary whose usages are spelled out, as long as it has no name. -/
def Node.isSpelledOut (node : Node) : Bool :=
  node.reference.isNone && (node.isArray || node.isDictionary) && !node.isEnumeration &&
    !node.isAny && (!node.isObject || node.isDictionary)

namespace Graph

variable {g : Graph} {id : SchemaId} {inlineNamedAny : Bool}

lemma lt_of_isSpelledOut (h : (g.node id).isSpelledOut) : id < g.size :=
  lt_size_of_ne Node.isSpelledOut fun hempty => absurd (hempty ▸ h) (by decide)

lemma isSpelledOut_of_usage
    (hany : ((g.node (g.actual (g.resolvable inlineNamedAny id))).isAny &&
      !g.isReference (g.resolvable inlineNamedAny id)) = false)
    (hnamed : (g.generatesType inlineNamedAny id ||
      (g.node (g.actual (g.resolvable inlineNamedAny id))).isEnumeration) = false)
    (hcontainer : (g.node (g.actual (g.resolvable inlineNamedAny id))).isArray ||
      (g.node (g.actual (g.resolvable inlineNamedAny id))).isDictionary) :
    (g.node (g.actual (g.resolvable inlineNamedAny id))).isSpelledOut := by
  rw [Bool.or_eq_false_iff] at hnamed
  obtain ⟨hgenerates, henumeration⟩ := hnamed
  simp only [generatesType, Bool.or_eq_false_iff] at hgenerates
  obtain ⟨href, hobject⟩ := hgenerates
  have hself : g.actual (g.resolvable inlineNamedAny id) = g.resolvable inlineNamedAny id := by
    apply actual_of_reference
    simpa using href
  rw [isReference, href, Bool.not_false, Bool.and_true] at hany
  rw [hself] at hany henumeration hcontainer ⊢
  rw [hany, Bool.not_false, Bool.and_true] at hobject
  rw [Option.isSome_eq_false_iff] at href
  simp only [Node.isSpelledOut, href, hcontainer, henumeration, hany, Bool.not_false, Bool.and_self,
    Bool.true_and]
  cases hdictionary : (g.node (g.resolvable inlineNamedAny id)).isDictionary with
  | true => rw [Bool.or_true]
  | false => simpa [hdictionary] using hobject

lemma not_isSpelledOut_of_usage
    (hnamed : g.generatesType inlineNamedAny id ||
      (g.node (g.actual (g.resolvable inlineNamedAny id))).isEnumeration) :
    (g.node (g.carrier id)).isSpelledOut = false := by
  by_contra hspelled
  rw [Bool.not_eq_false] at hspelled
  simp only [Node.isSpelledOut, Bool.and_eq_true, Bool.not_eq_true', Option.isNone_iff_eq_none]
    at hspelled
  obtain ⟨⟨⟨⟨href, hcontainer⟩, henumeration⟩, hany⟩, hobject⟩ := hspelled
  have hdef : g.isDefinitionType inlineNamedAny (g.carrier id) = false := by
    rcases Bool.or_eq_true_iff.mp hcontainer with h | h <;>
      simp [isDefinitionType, hany, h]
  have husage : g.resolvable inlineNamedAny id = g.carrier id := by
    unfold resolvable
    simp only
    rw [← carrier, hdef]
    rfl
  rw [husage, actual_of_reference href, henumeration, Bool.or_false] at hnamed
  simp only [generatesType, husage, href] at hnamed
  simp only [Bool.or_eq_true, Bool.not_eq_true'] at hobject
  rcases hobject with h | h
  · simp [h] at hnamed
  · simp [h] at hnamed

end Graph

namespace Session

variable {env : Environment} {r t u v w : Session} {F F' : Set SchemaId} {id : SchemaId}

/-- If the schema is spelled out and has no name at first, it has none in the end. -/
def Lasting (r t : Session) (id : SchemaId) : Prop :=
  (r.graph.node id).isSpelledOut → r.nameOf? id = none → t.nameOf? id = none

instance (r t : Session) (id : SchemaId) : Decidable (Lasting r t id) :=
  inferInstanceAs (Decidable (_ → _ → _))

/-- Nothing is prepared on the way, and a list or dictionary gets a name only if it is found inside
itself. -/
structure Undisturbed (env : Environment) (r t : Session) : Prop where
  graph : t.graph = r.graph
  own : ∀ id, (r.graph.node id).isSpelledOut → r.graph.carrier id = id
  parts : ∀ owner, ∀ id ∈ (r.graph.node owner).allOf, r.graph.isReference id →
    Lasting r t (r.graph.carrier id)
  registered : ∀ id, r.Registrable env.resolver.inlineNamedAny id → Lasting r t (r.graph.carrier id)

/-- The second session has the graph and the names of the first, and these schemas have no name in
it and are not being spelled out. -/
structure Resembles (F : Set SchemaId) (v w : Session) : Prop where
  graph : w.graph = v.graph
  wrappers : w.wrappers = v.wrappers
  names : ∀ id name, v.nameOf? id = some name → w.nameOf? id = some name
  unnamed : ∀ id ∈ F, w.nameOf? id = none
  closed : ∀ id ∈ F, id ∉ w.expanding.map (·.1)

lemma Resembles.from (h : Resembles ∅ u v) (h' : Resembles F' v w) (hsub : F ⊆ F') :
    Resembles F u w where
  graph := h'.graph.trans h.graph
  wrappers := h'.wrappers.trans h.wrappers
  names id name hname := h'.names id name (h.names id name hname)
  unnamed id hid := h'.unnamed id (hsub hid)
  closed id hid := h'.closed id (hsub hid)

lemma Undisturbed.still (h : Undisturbed env r t) (hu : Run env r u) (ht : Run env u t) :
    u.graph = r.graph ∧ u.wrappers = r.wrappers :=
  hu.still_between ht h.graph

lemma Undisturbed.resembles (h : Undisturbed env r t) (hu : Run env r u) (huv : Run env u v)
    (ht : Run env v t) : Resembles ∅ u v := by
  obtain ⟨hgraph, hwrappers⟩ := h.still hu (huv.trans ht)
  obtain ⟨hgraph', hwrappers'⟩ := h.still (hu.trans huv) ht
  exact ⟨hgraph'.trans hgraph.symm, hwrappers'.trans hwrappers.symm, fun _ _ => huv.nameOf?,
    by simp, by simp⟩

end Session

namespace SessionM

open Session

variable {α β ι : Type} {env : Environment} {r t u v w : Session} {F F' : Set SchemaId}
  {id : SchemaId}

/-- The action returns this and changes nothing, unless its depth is exceeded. -/
def Returns (env : Environment) (w : Session) (y : SessionM α) (a : α) : Prop :=
  y env w = (.ok a, w) ∨ (y env w).1 = .error .exhausted

namespace Returns

variable {y : SessionM α} {f : α → SessionM β} {a a' : α} {b : β}

lemma bind (hy : Returns env w y a) (hf : Returns env w (f a) b) : Returns env w (y >>= f) b := by
  rcases hy with h | h
  · rwa [Returns, bind_ok h]
  · right
    rcases hyw : y env w with ⟨_ | a, w'⟩
    · rw [bind_apply, hyw]
      rw [hyw] at h
      cases h
      rfl
    · rw [hyw] at h
      cases h

lemma congr {y' : SessionM α} (hy : Returns env w y' a) (h : y env w = y' env w) :
    Returns env w y a := by rwa [Returns, h]

lemma eq (hy : Returns env w y a) (h : y env w = (.ok a', v)) : v = w ∧ a' = a := by
  rcases hy with heq | heq
  · rw [h] at heq
    cases heq
    exact ⟨rfl, rfl⟩
  · rw [h] at heq
    cases heq

lemma expansion {hint : Option String} (hy : Returns env (w.beginExpansion id hint) y a)
    (hid : id ∉ w.expanding.map (·.1)) :
    Returns env w (within (·.beginExpansion id hint) (·.endExpansion id) y) a := by
  rcases hy with h | h
  · left
    rw [within, h]
    simp only [endExpansion, beginExpansion, Entries.filter_cons_self hid]
  · exact .inr h

end Returns

/-- In every such session the action returns this. -/
def Answers (env : Environment) (F : Set SchemaId) (v : Session) (y : SessionM α) (a : α) : Prop :=
  ∀ w, Resembles F v w → Returns env w y a

namespace Answers

variable {y : SessionM α} {f : α → SessionM β} {a : α} {b : β}

lemma exhausted : Answers env F v (throw .exhausted) a := fun _ _ => .inr rfl

lemma bind (hy : Answers env F v y a) (hf : Answers env F v (f a) b) :
    Answers env F v (y >>= f) b := fun w hw => (hy w hw).bind (hf w hw)

lemma later (hy : Answers env F u y a) (h : Resembles ∅ u v) (hsub : F ⊆ F') :
    Answers env F' v y a := fun w hw => hy w (h.from hw hsub)

lemma congr {y' : SessionM α} (hy : Answers env F v y' a)
    (h : ∀ w, Resembles F v w → y env w = y' env w) : Answers env F v y a :=
  fun w hw => (hy w hw).congr (h w hw)

/-- To spell something out changes only what is being spelled out. -/
lemma expansion {hint : Option String} (hy : Answers env F v y a) (hid : id ∉ F)
    (hw : Resembles F v w) (hnot : id ∉ w.expanding.map (·.1)) :
    Returns env w (within (·.beginExpansion id hint) (·.endExpansion id) y) a := by
  have hbegin : Resembles F v (w.beginExpansion id hint) := by
    refine ⟨hw.graph, hw.wrappers, hw.names, hw.unnamed, fun other hother hmem => ?_⟩
    rcases List.mem_cons.mp hmem with rfl | hmem
    · exact hid hother
    · exact hw.closed other hother hmem
  exact (hy _ hbegin).expansion hnot

end Answers

end SessionM

open SessionM in
/-- These lists and dictionaries have been spelled out to the end, and are without a name. -/
structure Session.Remembers (env : Environment) (F : Set SchemaId) (v : Session) : Prop where
  spelledOut : ∀ id ∈ F, (v.graph.node id).isSpelledOut
  unnamed : ∀ id ∈ F, v.nameOf? id = none
  closed : ∀ id ∈ F, id ∉ v.expanding.map (·.1)
  answers : ∀ id ∈ F, ∃ e, ∀ depth hint,
    Answers env F v (resolveContainer (resolveWithin depth) id hint) e

namespace Session.Remembers

open SessionM

variable {env : Environment} {r t u v : Session} {F : Set SchemaId} {id : SchemaId}

lemma resembles (h : u.Remembers env F) : Resembles F u u :=
  ⟨rfl, rfl, fun _ _ hname => hname, h.unnamed, h.closed⟩

lemma later (h : u.Remembers env F) (hsame : Resembles ∅ u v)
    (hunnamed : ∀ id ∈ F, v.nameOf? id = none)
    (hclosed : ∀ id ∈ F, id ∉ v.expanding.map (·.1)) : v.Remembers env F where
  spelledOut id hid := by
    rw [hsame.graph]
    exact h.spelledOut id hid
  unnamed := hunnamed
  closed := hclosed
  answers id hid := by
    obtain ⟨e, he⟩ := h.answers id hid
    exact ⟨e, fun depth hint => (he depth hint).later hsame subset_rfl⟩

lemma insert (h : v.Remembers env F) (hspelled : (v.graph.node id).isSpelledOut)
    (hunnamed : v.nameOf? id = none) (hclosed : id ∉ v.expanding.map (·.1)) {e : TypeExpr}
    (hanswers : ∀ depth hint,
      Answers env (insert id F) v (resolveContainer (resolveWithin depth) id hint) e) :
    v.Remembers env (insert id F) where
  spelledOut := Set.forall_mem_insert.mpr ⟨hspelled, h.spelledOut⟩
  unnamed := Set.forall_mem_insert.mpr ⟨hunnamed, h.unnamed⟩
  closed := Set.forall_mem_insert.mpr ⟨hclosed, h.closed⟩
  answers := Set.forall_mem_insert.mpr ⟨⟨e, hanswers⟩, fun other hother => by
    obtain ⟨e, he⟩ := h.answers other hother
    exact ⟨e, fun depth hint => (he depth hint).later
      ⟨rfl, rfl, fun _ _ hname => hname, by simp, by simp⟩ (Set.subset_insert id F)⟩⟩

/-- What is remembered gets no name when something else is named. -/
lemma named (h : u.Remembers env F) (hcalm : Undisturbed env r t) (hu : Run env r u)
    {hint : Option String} {name : String} (hname : typeName id hint env u = (.ok name, v))
    (ht : Run env v t) (hid : r.graph.carrier id ∈ F → Lasting r t (r.graph.carrier id)) :
    v.Remembers env F := by
  have huv : Run env u v := ((typeName_leads id hint).result hname).1
  have hstill := hcalm.still hu (huv.trans ht)
  have hsame := hcalm.resembles hu huv ht
  have hexpanding := expanding_of_typeName hname
  refine h.later hsame (fun other hother => ?_) (by rw [hexpanding]; exact h.closed)
  by_contra hgot
  have hfirst : u.nameOf? other = none := h.unnamed other hother
  rcases typeName_names hname hsame.graph hgot with hgot | ⟨named, hnamed, heq⟩
  · exact hgot hfirst
  have hlasting : Lasting r t other := by
    rw [hstill.1] at heq
    rw [heq]
    rcases hnamed with rfl | hnamed
    · exact hid (heq ▸ hother)
    · exact hcalm.registered named (hnamed.congr hstill)
  refine hgot (ht.nameOf?_eq_none (hlasting ?_ (hu.nameOf?_eq_none hfirst)))
  exact hstill.1 ▸ h.spelledOut other hother

end Session.Remembers

namespace SessionM

open Session

variable {α β ι : Type} {env : Environment} {r t u v w : Session} {F F' : Set SchemaId}
  {id : SchemaId}

/-- What the first action returns on the way from `r` to `t`, each of the others returns after it in
every session that resembles the one then. -/
structure Recalls (env : Environment) (r t : Session) (x : SessionM α) (y : ι → SessionM α) :
    Prop where
  run : ∀ u, Run env u (x env u).2
  recalled : ∀ {u a v F}, Run env r u → x env u = (.ok a, v) → Run env v t → u.Remembers env F →
    v.expanding = u.expanding ∧ ∃ F', F ⊆ F' ∧ v.Remembers env F' ∧ ∀ i, Answers env F' v (y i) a

namespace Recalls

variable {x : SessionM α} {y : ι → SessionM α} {f : α → SessionM β} {f' : α → ι → SessionM β}

lemma still {a : Session → α} (hx : ∀ u, x env u = (.ok (a u), u))
    (hy : ∀ i u w, w.graph = u.graph → y i env w = (.ok (a u), w)) : Recalls env r t x y := by
  refine ⟨fun u => by rw [hx], fun {u a v F} _ h _ hF => ?_⟩
  rw [hx] at h
  cases h
  exact ⟨rfl, F, subset_rfl, hF, fun i w hw => .inl (hy i u w hw.graph)⟩

lemma pure (a : α) : Recalls env r t (pure a) fun _ : ι => Pure.pure a :=
  still (fun _ => rfl) fun _ _ _ _ => rfl

lemma throw (e : Failure) : Recalls env r t (throw e) y :=
  ⟨fun _ => .refl, fun _ h _ _ => by cases h⟩

lemma bind (hcalm : Undisturbed env r t) (hx : Recalls env r t x y)
    (hf : ∀ a, Recalls env r t (f a) (f' a)) :
    Recalls env r t (x >>= f) fun i => y i >>= fun a => f' a i := by
  refine ⟨fun u => ?_, fun {u b v F} hu h ht hF => ?_⟩
  · have hrun := hx.run u
    rw [bind_apply]
    rcases hxu : x env u with ⟨_ | a, u'⟩
    · rwa [hxu] at hrun
    · rw [hxu] at hrun
      exact hrun.trans ((hf a).run u')
  · obtain ⟨a, u', hxu, hfa⟩ := bind_eq_ok h
    have hrun : Run env u u' := by
      have hrun := hx.run u
      rwa [hxu] at hrun
    have hlater : Run env u' v := by
      have hlater := (hf a).run u'
      rwa [hfa] at hlater
    obtain ⟨hsame, F₁, hsub, hF₁, hy⟩ := hx.recalled hu hxu (hlater.trans ht) hF
    obtain ⟨hsame', F₂, hsub', hF₂, hf'⟩ := (hf a).recalled (hu.trans hrun) hfa ht hF₁
    have hresembles := hcalm.resembles (hu.trans hrun) hlater ht
    exact ⟨hsame'.trans hsame, F₂, hsub.trans hsub', hF₂,
      fun i => ((hy i).later hresembles hsub').bind (hf' i)⟩

lemma congr {x' : SessionM α} {y' : ι → SessionM α} (hcalm : Undisturbed env r t)
    (h : Recalls env r t x' y') (hrun : ∀ u, Run env u (x env u).2)
    (hx : ∀ u, u.graph = r.graph → u.wrappers = r.wrappers → x env u = x' env u)
    (hy : ∀ i w, w.graph = r.graph → w.wrappers = r.wrappers → y i env w = y' i env w) :
    Recalls env r t x y := by
  refine ⟨hrun, fun {u a v F} hu hxu ht hF => ?_⟩
  have huv : Run env u v := by
    have huv := hrun u
    rwa [hxu] at huv
  obtain ⟨hgraph, hwrappers⟩ := hcalm.still hu (huv.trans ht)
  obtain ⟨hgraph', hwrappers'⟩ := hcalm.still (hu.trans huv) ht
  rw [hx u hgraph hwrappers] at hxu
  obtain ⟨hsame, F', hsub, hF', hanswers⟩ := h.recalled hu hxu ht hF
  refine ⟨hsame, F', hsub, hF', fun i => (hanswers i).congr fun w hw => ?_⟩
  exact hy i w (hw.graph.trans hgraph') (hw.wrappers.trans hwrappers')

/-- Of the session itself only what stays the same on the way is looked at. -/
lemma get {f : Session → SessionM α} {f' : Session → ι → SessionM α}
    (hcalm : Undisturbed env r t) (h : Recalls env r t (f r) (f' r))
    (hrun : ∀ u, Run env u ((MonadState.get >>= f) env u).2)
    (hf : ∀ s, s.graph = r.graph → s.wrappers = r.wrappers → f s = f r ∧ f' s = f' r) :
    Recalls env r t (MonadState.get >>= f) fun i => MonadState.get >>= fun s => f' s i := by
  refine h.congr hcalm hrun (fun u hgraph hwrappers => ?_) fun i w hgraph hwrappers => ?_
  · rw [bind_ok get_apply, (hf u hgraph hwrappers).1]
  · rw [bind_ok get_apply, (hf w hgraph hwrappers).2]

lemma graph {f : Graph → SessionM α} {f' : Graph → ι → SessionM α} (hcalm : Undisturbed env r t)
    (h : Recalls env r t (f r.graph) (f' r.graph))
    (hrun : ∀ u, Run env u ((SessionM.graph >>= f) env u).2) :
    Recalls env r t (SessionM.graph >>= f) fun i => SessionM.graph >>= fun g => f' g i := by
  refine h.congr hcalm hrun (fun u hgraph _ => ?_) fun i w hgraph _ => ?_
  · rw [bind_ok graph_apply, hgraph]
  · rw [bind_ok graph_apply, hgraph]

lemma reindex {κ : Type} (h : Recalls env r t x y) (k : κ → ι) :
    Recalls env r t x fun j => y (k j) := by
  refine ⟨h.run, fun hu hx ht hF => ?_⟩
  obtain ⟨hsame, F', hsub, hF', hanswers⟩ := h.recalled hu hx ht hF
  exact ⟨hsame, F', hsub, hF', fun j => hanswers (k j)⟩

/-- What is spelled out on the way can be spelled out again, inside other things than then. -/
lemma expansion {hint : Option String} {a : α} (h : Recalls env r t x y)
    (hcalm : Undisturbed env r t) (hu : Run env r u)
    (hx : within (·.beginExpansion id hint) (·.endExpansion id) x env u = (.ok a, v))
    (ht : Run env v t) (hF : u.Remembers env F) (hid : id ∉ F)
    (hnot : id ∉ u.expanding.map (·.1)) :
    v.expanding = u.expanding ∧ ∃ F', F ⊆ F' ∧ id ∉ F' ∧ v.Remembers env F' ∧
      ∀ i, Answers env F' v (y i) a := by
  obtain ⟨v', hbody, rfl⟩ := within_eq_ok hx
  have hbegin : Run env u (u.beginExpansion id hint) := .single (.beginExpansion id hint)
  have hend : Run env v' (v'.endExpansion id) := .single (.endExpansion id)
  have hwhole : Run env (u.beginExpansion id hint) v' := by
    have hrun := h.run (u.beginExpansion id hint)
    rwa [hbody] at hrun
  have hFbegin : (u.beginExpansion id hint).Remembers env F := by
    refine hF.later (hcalm.resembles hu hbegin (hwhole.trans (hend.trans ht))) hF.unnamed
      fun other hother hmem => ?_
    rcases List.mem_cons.mp hmem with rfl | hmem
    · exact hid hother
    · exact hF.closed other hother hmem
  obtain ⟨hsame, F', hsub, hF', hanswers⟩ :=
    h.recalled (hu.trans hbegin) hbody (hend.trans ht) hFbegin
  have hexpanding : (v'.endExpansion id).expanding = u.expanding := by
    rw [endExpansion, hsame, beginExpansion]
    exact Entries.filter_cons_self hnot
  have hvisible := hcalm.resembles (hu.trans (hbegin.trans hwhole)) hend ht
  refine ⟨hexpanding, F', hsub, ?_, ?_, fun i => (hanswers i).later hvisible subset_rfl⟩
  · exact fun hmem => hF'.closed id hmem (by rw [hsame]; exact List.mem_cons_self)
  · refine hF'.later hvisible hF'.unnamed fun other hother hmem => hF'.closed other hother ?_
    rw [hexpanding] at hmem
    rw [hsame]
    exact List.mem_cons_of_mem _ hmem

/-- At depth zero nothing is resolved. -/
lemma deepen {y : ℕ → SessionM α} (h : Recalls env r t x fun depth => y (depth + 1))
    (hzero : y 0 = MonadExcept.throw .exhausted) : Recalls env r t x y := by
  refine ⟨h.run, fun hu hx ht hF => ?_⟩
  obtain ⟨hsame, F', hsub, hF', hanswers⟩ := h.recalled hu hx ht hF
  refine ⟨hsame, F', hsub, hF', fun depth => ?_⟩
  cases depth with
  | zero =>
    rw [hzero]
    exact .exhausted
  | succ depth => exact hanswers depth

lemma named (hcalm : Undisturbed env r t) (hint : Option String)
    (hid : Lasting r t (r.graph.carrier id)) :
    Recalls env r t (typeName id hint) fun _ : ι => typeName id hint := by
  refine ⟨fun u => (typeName_leads id hint).1, fun {u name v F} hu h ht hF => ?_⟩
  obtain ⟨huv, hname⟩ := (typeName_leads id hint).result h
  have hsame := hcalm.resembles hu huv ht
  refine ⟨expanding_of_typeName h, F, subset_rfl, hF.named hcalm hu h ht fun _ => hid,
    fun _ w hw => .inl ?_⟩
  refine typeName_named ?_ hint
  rw [hw.graph, hsame.graph]
  exact hw.names _ name hname

end Recalls

/-- If every usage is spelled again in the same way, so is all that only asks for usages. -/
lemma Asks.recalls {resolver : ι → Resolver} {x : ι → SessionM α} (hx : Asks resolver x)
    (hcalm : Undisturbed env r t) (i : ι)
    (h : ∀ id nullable hint, Recalls env r t (resolver i id nullable hint) fun i =>
      resolver i id nullable hint) : Recalls env r t (x i) x := by
  induction hx with
  | usage id nullable hint => exact h id nullable hint
  | pure a => exact .pure a
  | graph => exact .still (fun _ => rfl) fun _ u w hgraph => by rw [graph_apply, hgraph]
  | read => exact .still (fun _ => rfl) fun _ _ _ _ => rfl
  | bind _ _ ihx ihf => exact .bind hcalm ihx ihf

end SessionM

end SchemaTypes
