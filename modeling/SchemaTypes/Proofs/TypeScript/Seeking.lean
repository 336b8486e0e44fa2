import SchemaTypes.Proofs.Session.Wrappers
import SchemaTypes.Proofs.TypeScript.Asking

/-! For which schemas names are sought while types are spelled and declared. An invariant that is
kept where such a schema is named, is kept by all of it, at every point and behind failures. -/

namespace SchemaTypes

/-- The schemas for which names are sought: wrappers, usages without one, lists and dictionaries,
and references among the parts of a named schema. -/
inductive Session.Sought (inlineNamedAny : Bool) (s : Session) (id : SchemaId) : Prop
  | wrapper (base : SchemaId) (h : s.wrapper? base = some id)
  | usage (hwrapper : s.wrapper? (s.graph.actual (s.graph.resolvable inlineNamedAny id)) = none)
      (hany : ((s.graph.node (s.graph.actual (s.graph.resolvable inlineNamedAny id))).isAny &&
        !s.graph.isReference (s.graph.resolvable inlineNamedAny id)) = false)
  | container (h : (s.graph.node id).isArray || (s.graph.node id).isDictionary)
  | part (owner : SchemaId) (hname : s.nameOf? owner ≠ none)
      (hpart : id ∈ (s.graph.node owner).allOf) (href : s.graph.isReference id)

/-- A number that the graph does not have stands for anything, so that no name is sought for it. -/
lemma Session.Sought.lt {s : Session} {g : Graph} {inlineNamedAny : Bool} {id : SchemaId}
    (h : s.Sought inlineNamedAny id) (hs : s.Extends g) : id < s.graph.size := by
  by_contra hge
  have hnode := Graph.node_of_size_le (Nat.le_of_not_lt hge)
  cases h with
  | wrapper base h => exact hge (hs.wrapper?_lt h)
  | usage _ hany =>
    have hactual : s.graph.actual id = id := Graph.actual_of_reference (by rw [hnode])
    have hself : s.graph.resolvable inlineNamedAny id = id := by
      unfold Graph.resolvable
      simp only [Graph.removeNullability_of_oneOf (show (s.graph.node id).oneOf = [] by rw [hnode]),
        hactual, ite_self]
    rw [hself, hactual, Graph.isReference, hnode] at hany
    cases hany
  | container h =>
    rw [hnode] at h
    cases h
  | part _ _ _ href =>
    rw [Graph.isReference, hnode] at href
    cases href

namespace SessionM

/-- An invariant of sessions, and what it is that each point of an action has to do with where the
action began. The invariant need not hold behind a failure. -/
structure Watch (env : Environment) where
  holds : Session → Prop
  passes : Session → Session → Prop
  run : ∀ s t, passes s t → Session.Run env s t
  refl : ∀ s, holds s → passes s s
  trans : ∀ s t u, passes s t → passes t u → passes s u
  typeName : ∀ s id hint, holds s → s.Sought env.resolver.inlineNamedAny id →
    passes s (SessionM.typeName id hint env s).2 ∧
      ∀ name t, SessionM.typeName id hint env s = (.ok name, t) → holds t
  beginExpansion : ∀ s id hint, holds s →
    (s.graph.node id).isArray || (s.graph.node id).isDictionary →
      passes s (s.beginExpansion id hint) ∧ holds (s.beginExpansion id hint)
  endExpansion : ∀ s t id, holds s → passes s t →
    passes s (t.endExpansion id) ∧ (holds t → holds (t.endExpansion id))

namespace Watch

variable {α β : Type} {env : Environment} {s : Session}

/-- What is kept by results, where all that matters about the way there is that it is a run. -/
def keeping (J : Session → Prop)
    (typeName : ∀ s id hint name t, J s → s.Sought env.resolver.inlineNamedAny id →
      SessionM.typeName id hint env s = (.ok name, t) → J t)
    (beginExpansion : ∀ s id hint, J s → J (s.beginExpansion id hint))
    (endExpansion : ∀ s id, J s → J (s.endExpansion id)) : Watch env where
  holds := J
  passes := Session.Run env
  run _ _ h := h
  refl _ _ := .refl
  trans _ _ _ h h' := h.trans h'
  typeName s id hint hs hid :=
    have hleads : Leads env s (SessionM.typeName id hint) _ := typeName_leads id hint
    ⟨hleads.1, fun name t => typeName s id hint name t hs hid⟩
  beginExpansion s id hint hs _ := ⟨.single (.beginExpansion id hint), beginExpansion s id hint hs⟩
  endExpansion _ t id _ h := ⟨h.tail (.endExpansion id), endExpansion t id⟩

/-- From `s` the action passes, and its result is where the invariant holds. -/
def Along (w : Watch env) (s : Session) (x : SessionM α) : Prop :=
  w.passes s (x env s).2 ∧ ∀ a t, x env s = (.ok a, t) → w.holds t

/-- The action passes from wherever the invariant holds. -/
def Over (w : Watch env) (x : SessionM α) : Prop := ∀ s, w.holds s → w.Along s x

variable {w : Watch env} {x : SessionM α} {f : α → SessionM β}

lemma Along.still (hs : w.holds s) (h : (x env s).2 = s) : w.Along s x := by
  refine ⟨?_, fun a t hx => ?_⟩
  · rw [h]
    exact w.refl s hs
  · rw [hx] at h
    exact (show t = s from h) ▸ hs

lemma Along.pure (hs : w.holds s) (a : α) : w.Along s (pure a) := .still hs rfl

lemma Along.look {a : α} (hx : x env s = (.ok a, s)) (hf : w.Along s (f a)) :
    w.Along s (x >>= f) := by
  rw [Along, bind_ok hx]
  exact hf

lemma Along.bind (hx : w.Along s x)
    (hf : ∀ a t, w.passes s t → w.holds t → w.Along t (f a)) : w.Along s (x >>= f) := by
  obtain ⟨hpasses, hholds⟩ := hx
  rw [Along, bind_apply]
  rcases hxs : x env s with ⟨e | a, t⟩
  · rw [hxs] at hpasses
    exact ⟨hpasses, fun b u h => by cases h⟩
  · rw [hxs] at hpasses
    obtain ⟨hpasses', hholds'⟩ := hf a t hpasses (hholds a t hxs)
    exact ⟨w.trans _ _ _ hpasses hpasses', hholds'⟩

lemma Over.pure (a : α) : w.Over (pure a : SessionM α) := fun _ hs => .pure hs a

lemma Over.bind (hx : w.Over x) (hf : ∀ a, w.Over (f a)) : w.Over (x >>= f) :=
  fun s hs => (hx s hs).bind fun a t _ ht => hf a t ht

lemma Along.named (hs : w.holds s) {id : SchemaId}
    (hid : s.Sought env.resolver.inlineNamedAny id) (hint : Option String) :
    w.Along s (SessionM.typeName id hint) := w.typeName s id hint hs hid

lemma Along.expansion (hs : w.holds s) {id : SchemaId}
    (hid : (s.graph.node id).isArray || (s.graph.node id).isDictionary) (hint : Option String)
    (hx : w.Over x) : w.Along s (within (·.beginExpansion id hint) (·.endExpansion id) x) := by
  obtain ⟨hbegin, hbegun⟩ := w.beginExpansion s id hint hs hid
  obtain ⟨hpasses, hholds⟩ := hx _ hbegun
  have hall := w.trans _ _ _ hbegin hpasses
  refine ⟨(w.endExpansion s _ id hs hall).1, fun a t h => ?_⟩
  obtain ⟨u, hxu, rfl⟩ := within_eq_ok h
  rw [hxu] at hall
  exact (w.endExpansion s u id hs hall).2 (hholds a u hxu)

end Watch

lemma Asks.over {α ι : Type} {env : Environment} {w : Watch env} {resolver : ι → Resolver}
    {x : ι → SessionM α} (hx : Asks resolver x)
    (hresolver : ∀ i id nullable hint, w.Over (resolver i id nullable hint)) (i : ι) :
    w.Over (x i) := by
  induction hx with
  | usage id nullable hint => exact hresolver i id nullable hint
  | pure a => exact .pure a
  | graph => exact fun s hs => .still hs rfl
  | read => exact fun s hs => .still hs rfl
  | bind _ _ ihx ihf => exact .bind ihx ihf

namespace Watch

variable {env : Environment} {s : Session} {id : SchemaId} (w : Watch env)

section

variable {resolver : Resolver} (hresolver : ∀ id nullable hint, w.Over (resolver id nullable hint))

include hresolver

lemma asks {α : Type} {x : SessionM α} (hx : Asks (fun _ : Unit => resolver) fun _ => x) :
    w.Over x :=
  hx.over (fun _ => hresolver) ()

lemma resolveContainer (hs : w.holds s)
    (hid : (s.graph.node id).isArray || (s.graph.node id).isDictionary) (hint : Option String) :
    w.Along s (SessionM.resolveContainer resolver id hint) := by
  refine .look get_apply ?_
  split
  · exact .pure hs _
  · exact (Along.named hs (.container hid) _).bind fun _ _ _ ht => .pure ht _
  · refine (Along.expansion hs hid hint (w.asks hresolver (.spellContainer id))).bind
      fun e t _ ht => .look get_apply ?_
    split <;> exact .pure ht _

lemma resolveBare (hint : Option String) : w.Over (SessionM.resolveBare resolver id hint) := by
  intro s hs
  refine .look get_apply (.look read_apply ?_)
  simp only
  split
  · rename_i wrapper hwrapper
    exact (Along.named hs (.wrapper _ hwrapper) hint).bind fun _ _ _ ht => .pure ht _
  · rename_i hwrapper
    split
    · exact .pure hs _
    · rename_i hany
      split
      · have hid : s.Sought env.resolver.inlineNamedAny id :=
          .usage hwrapper (by simpa only [Bool.not_eq_true] using hany)
        exact (Along.named hs hid hint).bind fun _ _ _ ht => .pure ht _
      · split
        · rename_i hcontainer
          exact w.resolveContainer hresolver hs hcontainer hint
        · exact w.asks hresolver (.resolvePlain _) s hs

end

lemma resolveWithin (depth : ℕ) (id : SchemaId) (nullable : Bool) (hint : Option String) :
    w.Over (SessionM.resolveWithin depth id nullable hint) := by
  induction depth generalizing id nullable hint with
  | zero => exact fun s hs => .still hs rfl
  | succ depth ih =>
    exact .bind (w.resolveBare ih hint) fun e => w.asks ih (.spellNullable nullable e)

lemma resolve (id : SchemaId) (nullable : Bool) (hint : Option String) :
    w.Over (SessionM.resolve id nullable hint) :=
  fun s hs => .look graph_apply (w.resolveWithin _ id nullable hint s hs)

lemma aliasTarget (hs : w.holds s)
    (hid : (s.graph.node id).isArray || (s.graph.node id).isDictionary) :
    w.Along s (SessionM.aliasTarget id) :=
  .expansion hs hid none (w.asks w.resolve (.spellContainer id))

/-- The owner keeps its name and its parts meanwhile. -/
lemma collectParts {owner : SchemaId} (ids : List SchemaId) (parts : Parts) (hs : w.holds s)
    (howner : s.nameOf? owner ≠ none) (hids : ids ⊆ (s.graph.node owner).allOf) :
    w.Along s (SessionM.collectParts parts ids) := by
  induction ids generalizing s parts with
  | nil => exact .pure hs _
  | cons id rest ih =>
    obtain ⟨hid, hrest⟩ := List.cons_subset.mp hids
    refine .look graph_apply ?_
    simp only
    split
    · rename_i href
      refine (Along.named hs (.part owner howner hid href) none).bind fun name t hpasses ht => ?_
      have hrun := w.run s t hpasses
      refine ih _ ht (mt hrun.nameOf?_eq_none howner) (List.Subset.trans hrest ?_)
      exact (hrun.grows owner).allOf_subset
    · exact ih _ hs howner hrest

lemma declareInterface (name : String) (hs : w.holds s) (hid : s.nameOf? id ≠ none) :
    w.Along s (SessionM.declareInterface id name) := by
  refine .look graph_apply ?_
  refine (w.collectParts _ _ hs hid (List.Subset.refl _)).bind fun _ t _ ht => ?_
  exact (w.asks w.resolve (.declareFields (fun _ => rfl) _ _ _) t ht).bind
    fun _ _ _ hu => .pure hu _

lemma declare (name : String) (hs : w.holds s) (hid : s.nameOf? id ≠ none) :
    w.Along s (SessionM.declare id name) := by
  refine .look get_apply ?_
  simp only
  have hchoice (choice : Choice) := w.asks w.resolve (.declareChoice (fun _ => rfl) choice) s hs
  split
  · exact hchoice _
  · split
    · exact hchoice _
    · split
      · exact .pure hs _
      · split
        · rename_i hcontainer
          exact (w.aliasTarget hs hcontainer).bind fun _ _ _ ht => .pure ht _
        · split
          · exact .pure hs _
          · exact w.declareInterface name hs hid

lemma declarationsWithin (bound position : ℕ) :
    w.Over (SessionM.declarationsWithin bound position) := by
  induction bound generalizing position with
  | zero => exact fun s hs => .still hs rfl
  | succ bound ih =>
    intro s hs
    refine .look get_apply ?_
    split
    · exact .pure hs _
    · rename_i id name hentry
      have hid := Session.nameOf?_ne_none (List.mem_of_getElem? hentry)
      refine (w.declare name hs hid).bind fun _ t _ ht => ?_
      exact (ih (position + 1) t ht).bind fun _ _ _ hu => .pure hu _

lemma emit : w.Over SessionM.emit := fun _ hs =>
  .look read_apply (Along.bind (.look graph_apply (w.declarationsWithin _ 0 _ hs))
    fun _ _ _ ht => .pure ht _)

end Watch

end SessionM

end SchemaTypes
