import SchemaTypes.Proofs.Graph.Alternatives
import SchemaTypes.Proofs.Session.Operations
import SchemaTypes.Proofs.Session.Wrappers

/-! Operations end. Those under way are remembered in the session, each is undone when it is left,
and what is not yet among them gets less with each that is entered. -/

namespace SchemaTypes

namespace Graph

variable {g g' : Graph} {id : SchemaId}

def spare (g : Graph) (used : List SchemaId) : ℕ :=
  ((Finset.range g.size).filter fun id => id ∉ used).card

lemma spare_le (g : Graph) (used : List SchemaId) : g.spare used ≤ g.size := by
  have h := Finset.card_filter_le (Finset.range g.size) fun id => id ∉ used
  rwa [Finset.card_range] at h

lemma spare_cons_lt {used : List SchemaId} (hid : id < g.size) (hnot : id ∉ used) :
    g.spare (id :: used) < g.spare used := by
  apply Finset.card_lt_card
  refine Finset.ssubset_iff_of_subset ?_ |>.mpr ⟨id, ?_, ?_⟩
  · intro other hother
    obtain ⟨hrange, hused⟩ := Finset.mem_filter.mp hother
    exact Finset.mem_filter.mpr ⟨hrange, fun h => hused (List.mem_cons_of_mem id h)⟩
  · exact Finset.mem_filter.mpr ⟨Finset.mem_range.mpr hid, hnot⟩
  · exact fun h => (Finset.mem_filter.mp h).2 List.mem_cons_self

lemma Closed.resolvable_lt (hg : g.Closed) {inlineNamedAny : Bool} (hid : id < g.size) :
    g.resolvable inlineNamedAny id < g.size := by
  have hbare := hg.removeNullability_lt hid
  rcases g.resolvable_cases inlineNamedAny id with heq | heq <;> rw [heq]
  · exact hbare
  · exact hg.actual_lt hbare

lemma Closed.carrier_lt (hg : g.Closed) (hid : id < g.size) : g.carrier id < g.size :=
  hg.actual_lt (hg.removeNullability_lt hid)

end Graph

namespace Session

variable {env : Environment} {s t u : Session}

def Named (s : Session) : Prop := ∀ entry ∈ s.types, entry.1 < s.graph.size

lemma Named.unnamed {id : SchemaId} (hs : s.Named) (hid : s.graph.size ≤ id) :
    s.nameOf? id = none := by
  rw [nameOf?_eq_none]
  intro hmem
  obtain ⟨entry, hentry, rfl⟩ := List.mem_map.mp hmem
  exact absurd (hs entry hentry) (Nat.not_lt.mpr hid)

/-- A run after which the guards are as they were before. -/
structure Balanced (env : Environment) (s t : Session) : Prop where
  run : Run env s t
  registering : t.registering = s.registering
  expanding : t.expanding = s.expanding
  named : s.Named → t.Named

lemma Balanced.refl : Balanced env s s := ⟨.refl, rfl, rfl, id⟩

lemma Balanced.trans (h : Balanced env s t) (h' : Balanced env t u) : Balanced env s u :=
  ⟨h.run.trans h'.run, h'.registering.trans h.registering, h'.expanding.trans h.expanding,
    fun hs => h'.named (h.named hs)⟩

lemma Balanced.lt (h : Balanced env s t) {id : SchemaId} (hid : id < s.graph.size) :
    id < t.graph.size := Nat.lt_of_lt_of_le hid h.run.size_le

end Session

namespace SessionM

variable {α β : Type} {env : Environment} {s : Session} {g : Graph} {id : SchemaId}

/-- The action comes to an end that is not for want of depth, with the guards as they were. -/
def Ends (env : Environment) (s : Session) (x : SessionM α) : Prop :=
  Session.Balanced env s (x env s).2 ∧ (x env s).1 ≠ .error .exhausted

namespace Ends

variable {x : SessionM α} {f : α → SessionM β}

lemma pure (a : α) : Ends env s (pure a) := ⟨.refl, by simp⟩

lemma bind (hx : Ends env s x)
    (hf : ∀ a t, x env s = (.ok a, t) → Session.Balanced env s t → Ends env t (f a)) :
    Ends env s (x >>= f) := by
  obtain ⟨hbalanced, hend⟩ := hx
  rw [Ends, bind_apply]
  rcases hxs : x env s with ⟨e | a, t⟩
  · rw [hxs] at hbalanced hend
    exact ⟨hbalanced, fun h => hend (by cases h; rfl)⟩
  · rw [hxs] at hbalanced
    obtain ⟨hbalanced', hend'⟩ := hf a t hxs hbalanced
    exact ⟨hbalanced.trans hbalanced', hend'⟩

lemma look {a : α} (hx : x env s = (.ok a, s)) (hf : Ends env s (f a)) :
    Ends env s (x >>= f) := by
  rw [Ends, bind_ok hx]
  exact hf

lemma discard (h : Ends env s x) : Ends env s (discard x) := by
  rw [discard_eq_bind]
  exact h.bind fun _ _ _ _ => .pure _

lemma registration (hid : id ∉ s.registering) (hx : Ends env (s.beginRegistration id) x) :
    Ends env s (within (·.beginRegistration id) (·.endRegistration id) x) := by
  obtain ⟨⟨hrun, hregistering, hexpanding, hnamed⟩, hend⟩ := hx
  refine ⟨⟨?_, ?_, hexpanding, hnamed⟩, hend⟩
  · exact (Relation.ReflTransGen.single (.beginRegistration id hid)).trans
      (hrun.tail (.endRegistration id))
  · change (x env (s.beginRegistration id)).2.registering.erase id = s.registering
    rw [hregistering, Session.beginRegistration, List.erase_cons_head]

lemma expansion {hint : Option String} (hid : id ∉ s.expanding.map (·.1))
    (hx : Ends env (s.beginExpansion id hint) x) :
    Ends env s (within (·.beginExpansion id hint) (·.endExpansion id) x) := by
  obtain ⟨⟨hrun, hregistering, hexpanding, hnamed⟩, hend⟩ := hx
  refine ⟨⟨?_, hregistering, ?_, hnamed⟩, hend⟩
  · exact (Relation.ReflTransGen.single (.beginExpansion id hint)).trans
      (hrun.tail (.endExpansion id))
  · change (x env (s.beginExpansion id hint)).2.expanding.filter (·.1 != id) = s.expanding
    rw [hexpanding, Session.beginExpansion, Entries.filter_cons_self hid]

end Ends

lemma assign_ends (hid : id < s.graph.size) (hint : Option String) :
    Ends env s (assign id hint) := by
  have hleads : Leads env s (assign id hint) _ := assign_leads id hint
  have hrun := hleads.1
  cases h : s.nameOf? id with
  | some name =>
    rw [Ends, assign_named h]
    exact ⟨.refl, by simp⟩
  | none =>
    rcases @assign_unnamed env s id h hint with ⟨e, heq, _⟩ | ⟨name, heq, _⟩
    · rw [heq] at hrun
      rw [Ends, heq]
      exact ⟨⟨hrun, rfl, rfl, fun h => h⟩, by simp⟩
    · rw [heq] at hrun
      rw [Ends, heq]
      refine ⟨⟨hrun, rfl, rfl, fun hnamed entry hentry => ?_⟩, by simp⟩
      rcases List.mem_append.mp hentry with hentry | hentry
      · exact hnamed entry hentry
      · rw [List.mem_singleton.mp hentry]
        exact hid

lemma prepare_ends (hdef : s.graph.isDefinitionType env.resolver.inlineNamedAny id) :
    Ends env s (prepare id) := by
  have hstep : Session.Step env s (s.prepare id).2 := .prepare id hdef
  rw [Ends, prepare_apply]
  refine ⟨⟨.single hstep, ?_, ?_, fun hnamed entry hentry => ?_⟩, by simp⟩
  · exact Session.prepare_keeps Session.registering (fun _ _ _ _ _ => rfl) s id
  · exact Session.prepare_keeps Session.expanding (fun _ _ _ _ _ => rfl) s id
  · rw [Session.prepare_types] at hentry
    exact Nat.lt_of_lt_of_le (hnamed entry hentry) hstep.size_le

lemma registerEach_ends {name : SchemaId → Option String → SessionM String}
    {registering : List SchemaId}
    (hname : ∀ id hint t, t.Extends g → t.registering = registering → id < t.graph.size →
      Ends env t (name id hint))
    (definitions : List (String × SchemaId)) (hs : s.Extends g)
    (hregistering : s.registering = registering)
    (hdefinitions : ∀ entry ∈ definitions, entry.2 < s.graph.size) :
    Ends env s (registerEach name definitions) := by
  induction definitions generalizing s with
  | nil => exact .pure _
  | cons entry rest ih =>
    obtain ⟨key, definition⟩ := entry
    obtain ⟨hlt, hrest⟩ := List.forall_mem_cons.mp hdefinitions
    have hactual := hs.closed.actual_lt hlt
    refine .look graph_apply (.look (isDefinitionType_apply _) ?_)
    split
    · rename_i hdef
      refine (prepare_ends hdef).bind fun target t hprepare hbalanced => ?_
      have ht := hbalanced.run.extends hs
      have htarget : target < t.graph.size := by
        have h := Session.prepare_target_lt hs hdef hactual
        rw [prepare_apply] at hprepare
        cases hprepare
        exact h
      have hname' := hname target (some key) t ht (hbalanced.registering.trans hregistering) htarget
      refine hname'.discard.bind fun _ u _ hbalanced' => ?_
      have hall := hbalanced.trans hbalanced'
      refine ih (hall.run.extends hs) (hall.registering.trans hregistering) fun entry hentry => ?_
      exact hall.lt (hrest entry hentry)
    · exact ih hs hregistering hrest

lemma typeNameWithin_ends {depth : ℕ} (hs : s.Extends g) (hid : id < s.graph.size)
    (hdepth : g.spare s.registering < depth) (hint : Option String) :
    Ends env s (typeNameWithin depth id hint) := by
  induction depth generalizing id hint s with
  | zero => exact absurd hdepth (Nat.not_lt_zero _)
  | succ depth ih =>
    have hcarrier := hs.closed.carrier_lt hid
    refine .look get_apply ?_
    cases h : s.nameOf? (s.graph.actual (s.graph.removeNullability id)) with
    | some name =>
      simp only [h]
      exact .pure name
    | none =>
      simp only [h]
      split
      · rename_i hfree
        have hnot : s.graph.carrier id ∉ s.registering := by simpa [Graph.carrier] using hfree
        refine Ends.bind ?_ fun _ t _ hbalanced =>
          assign_ends (hbalanced.lt hcarrier) hint
        refine Ends.registration hnot ?_
        by_cases hnone : (s.graph.node (s.graph.carrier id)).definitions = []
        · change Ends env _ (registerEach _ (s.graph.node (s.graph.carrier id)).definitions)
          rw [hnone]
          exact .pure _
        · -- Only the schemas of the document have definitions, and one of them is entered.
          have hlt : s.graph.carrier id < g.size := by
            rw [(hs.grows _).definitions] at hnone
            exact Graph.lt_size_of_ne Node.definitions hnone
          have hless : g.spare (s.graph.carrier id :: s.registering) < depth :=
            Nat.lt_of_lt_of_le (Graph.spare_cons_lt hlt hnot) (Nat.le_of_lt_succ hdepth)
          have hbegin : (s.beginRegistration (s.graph.carrier id)).Extends g := hs.congr rfl rfl
          refine registerEach_ends
            (fun id hint t ht hregistering hid => ih ht hid ?_ hint) _ hbegin rfl
            (hs.closed (s.graph.carrier id)).definitions
          rw [hregistering]
          exact hless
      · exact assign_ends hcarrier hint

lemma typeName_ends (hs : s.Extends g) (hid : id < s.graph.size) (hint : Option String) :
    Ends env s (typeName id hint) := by
  refine .look graph_apply (typeNameWithin_ends hs hid ?_ hint)
  have hspare := g.spare_le s.registering
  have hsize := hs.size
  omega

lemma register_ends {definitions : List (String × SchemaId)} (hs : s.Extends g)
    (hdefinitions : ∀ entry ∈ definitions, entry.2 < s.graph.size) :
    Ends env s (register definitions) :=
  registerEach_ends (fun _ hint _ ht _ hid => typeName_ends ht hid hint) definitions hs rfl
    hdefinitions

end SessionM

end SchemaTypes
