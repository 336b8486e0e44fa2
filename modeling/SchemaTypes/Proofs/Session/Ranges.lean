import SchemaTypes.Proofs.Session.Guards

/-! Every number that a session stores is one of a node. That is so at each point of an operation,
also of one that fails, if the operation is called with such numbers. -/

namespace SchemaTypes

/-- The schemas of the remapping are among the first `n`. -/
structure Remapping.Within (n : ℕ) (r : Remapping) : Prop where
  subtype : r.subtype < n
  previous : r.previous < n
  wrapper : r.wrapper < n

lemma Remapping.Within.mono {n m : ℕ} {r : Remapping} (h : r.Within n) (hle : n ≤ m) :
    r.Within m :=
  ⟨Nat.lt_of_lt_of_le h.subtype hle, Nat.lt_of_lt_of_le h.previous hle,
    Nat.lt_of_lt_of_le h.wrapper hle⟩

namespace Graph

variable {g g' : Graph} {id wrapper : SchemaId} {property : String}

lemma mapValue_remappings (hg : g.Closed) (hid : id < g.size) (hwrapper : wrapper < g.size)
    (value : String) : ∀ r ∈ (g.mapValue property wrapper value id).2, r.Within g.size := by
  intro r hr
  rw [mapValue] at hr
  simp only [remapping?] at hr
  split at hr
  case h_2 => cases hr
  rename_i previous hlookup
  split at hr
  · cases hr
  rw [List.mem_singleton.mp hr]
  refine ⟨hid, ?_, hwrapper⟩
  obtain ⟨before, after, hmapping, _⟩ := List.lookup_eq_some_iff.mp hlookup
  cases hd : (g.node id).discriminator with
  | none => simp [hd] at hlookup
  | some d =>
    rw [hd, Option.getD_some] at hmapping
    exact (hg id).discriminator d hd (value, previous) (by simp [hmapping])

lemma composeSubtypes_remappings (hg : g.Closed) (hwrapper : wrapper < g.size)
    {mapping : List (String × SchemaId)} (hmapping : ∀ entry ∈ mapping, entry.2 < g.size) :
    ∀ r ∈ (g.composeSubtypes property wrapper mapping).2, r.Within g.size := by
  induction mapping generalizing g with
  | nil => simp [composeSubtypes]
  | cons entry rest ih =>
    obtain ⟨value, target⟩ := entry
    obtain ⟨htarget, hrest⟩ := List.forall_mem_cons.mp hmapping
    have hactual := hg.actual_lt htarget
    have hpart := composes_part property value (g.actual target) hwrapper
    have hsize : (g.compose wrapper (g.actual target)).size = g.size := size_update ..
    have hcomposed : (g.compose wrapper (g.actual target)).Closed := hg.compose hactual
    rw [← hsize] at hwrapper hactual
    intro r hr
    rcases List.mem_append.mp hr with hr | hr
    · rw [← hsize]
      exact mapValue_remappings hcomposed hactual hwrapper value r hr
    · rw [← hpart.size] at hrest ⊢
      refine ih (hcomposed.mapValue hwrapper) ?_ hrest r hr
      exact Nat.lt_of_lt_of_eq hwrapper (hsize.trans hpart.size.symm)

lemma wrapChoice_remappings {remappings : List Remapping} (hg : g.Closed)
    (h : g.wrapChoice id = some (g', wrapper, remappings)) :
    ∀ r ∈ remappings, r.Within g'.size := by
  obtain ⟨_, _, _, _, hwraps, _⟩ := wrapChoice_wraps h
  rw [hwraps.size]
  unfold wrapChoice at h
  split at h
  case h_1 => cases h
  rename_i d hd
  split at h
  · cases h
  cases h
  rw [← size_push g {}]
  refine composeSubtypes_remappings hg.push ?_ fun entry hentry => ?_
  · rw [size_push]
    exact Nat.lt_succ_self _
  · rw [size_push]
    exact Nat.lt_succ_of_lt (hg.mapping_lt hd entry hentry)

end Graph

namespace Session

variable {env : Environment} {s t u : Session} {g : Graph} {id : SchemaId}

/-- Every number in the session is one of a node of its graph. -/
structure InRange (s : Session) : Prop where
  graph : s.graph.Closed
  types : ∀ entry ∈ s.types, entry.1 < s.graph.size
  registering : ∀ id ∈ s.registering, id < s.graph.size
  prepared : ∀ id ∈ s.prepared, id < s.graph.size
  wrappers : ∀ entry ∈ s.wrappers, entry.1 < s.graph.size ∧ entry.2 < s.graph.size
  expanding : ∀ entry ∈ s.expanding, entry.1 < s.graph.size
  remappings : ∀ r ∈ s.remappings, r.Within s.graph.size

lemma InRange.start (hg : g.Closed) : InRange { graph := g } := by
  constructor <;> simp [hg]

lemma InRange.beginRegistration (hs : s.InRange) (hid : id < s.graph.size) :
    (s.beginRegistration id).InRange :=
  { hs with registering := List.forall_mem_cons.mpr ⟨hid, hs.registering⟩ }

lemma InRange.endRegistration (hs : s.InRange) (id : SchemaId) : (s.endRegistration id).InRange :=
  { hs with registering := fun other hother => hs.registering other (List.mem_of_mem_erase hother) }

lemma InRange.beginExpansion (hs : s.InRange) (hid : id < s.graph.size) (hint : Option String) :
    (s.beginExpansion id hint).InRange :=
  { hs with expanding := List.forall_mem_cons.mpr ⟨hid, hs.expanding⟩ }

lemma InRange.endExpansion (hs : s.InRange) (id : SchemaId) : (s.endExpansion id).InRange :=
  { hs with expanding := fun entry hentry => hs.expanding entry (List.mem_of_mem_filter hentry) }

lemma InRange.refuse (hs : s.InRange) : InRange { s with requests := s.requests + 1 } :=
  { hs with }

lemma InRange.give (hs : s.InRange) (hid : id < s.graph.size) (name : String) :
    (s.give id name).InRange := by
  refine { hs with types := fun entry hentry => ?_ }
  rcases List.mem_append.mp hentry with hentry | hentry
  · exact hs.types entry hentry
  · rw [List.mem_singleton.mp hentry]
    exact hid

lemma InRange.grown {graph : Graph} (hs : s.InRange) (hgraph : graph.Closed)
    (hle : s.graph.size ≤ graph.size) : InRange { s with graph } where
  graph := hgraph
  types entry hentry := Nat.lt_of_lt_of_le (hs.types entry hentry) hle
  registering id hid := Nat.lt_of_lt_of_le (hs.registering id hid) hle
  prepared id hid := Nat.lt_of_lt_of_le (hs.prepared id hid) hle
  wrappers entry hentry := (hs.wrappers entry hentry).imp (Nat.lt_of_lt_of_le · hle)
    (Nat.lt_of_lt_of_le · hle)
  expanding entry hentry := Nat.lt_of_lt_of_le (hs.expanding entry hentry) hle
  remappings r hr := (hs.remappings r hr).mono hle

lemma InRange.prepare (hs : s.InRange) (hid : id < s.graph.size) : (s.prepare id).2.InRange := by
  have hexpanded := hs.graph.expandAlternatives id
  have hsize := Graph.expandAlternatives_size s.graph id
  have hprepares := s.prepares id
  generalize s.prepare id = result at hprepares ⊢
  cases hprepares with
  | wrapped | known => exact hs
  | expands =>
    have hgrown := hs.grown hexpanded (Nat.le_of_eq hsize.symm)
    exact { hgrown with prepared := List.forall_mem_cons.mpr ⟨hsize.symm ▸ hid, hgrown.prepared⟩ }
  | wraps graph wrapper remappings _ _ hwrap =>
    obtain ⟨rfl, _, _, _, hwraps, _, hclosed⟩ := Graph.wrapChoice_wraps hwrap
    have hlt : s.graph.size < graph.size := by
      rw [hwraps.size, hsize]
      exact Nat.lt_succ_self _
    have hgrown := hs.grown (hclosed hexpanded) (Nat.le_of_lt hlt)
    have hid' := Nat.lt_trans hid hlt
    refine { hgrown with
      prepared := List.forall_mem_cons.mpr ⟨hid', hgrown.prepared⟩
      wrappers := fun entry hentry => ?_
      remappings := fun r hr => ?_ }
    · rcases List.mem_append.mp hentry with hentry | hentry
      · exact hgrown.wrappers entry hentry
      · rw [List.mem_singleton.mp hentry]
        exact ⟨hid', hsize.symm ▸ hlt⟩
    · rcases List.mem_append.mp hr with hr | hr
      · exact hgrown.remappings r hr
      · exact Graph.wrapChoice_remappings hexpanded hwrap r hr

/-- A run on which every number stays in range. -/
abbrev RunInRange (env : Environment) : Session → Session → Prop :=
  Relation.ReflTransGen fun s t => Step env s t ∧ t.InRange

lemma RunInRange.run (h : RunInRange env s t) : Run env s t :=
  Relation.ReflTransGen.mono (fun _ _ hstep => hstep.1) _ _ h

lemma RunInRange.inRange (h : RunInRange env s t) (hs : s.InRange) : t.InRange := by
  cases h with
  | refl => exact hs
  | tail _ hlast => exact hlast.2

/-- The session extends the graph, and its numbers are in range. -/
structure Anchored (g : Graph) (s : Session) : Prop where
  extends_graph : s.Extends g
  inRange : s.InRange

lemma Anchored.start (hg : g.Closed) : Anchored g { graph := g } := ⟨.start hg, .start hg⟩

lemma Anchored.after (hs : s.Anchored g) (h : RunInRange env s t) : t.Anchored g :=
  ⟨h.run.extends hs.extends_graph, h.inRange hs.inRange⟩

end Session

namespace SessionM

open Session

variable {α β : Type} {env : Environment} {s : Session} {g : Graph} {id : SchemaId}

/-- The action runs in range, whether it has a result or fails. -/
def Stays (env : Environment) (s : Session) (x : SessionM α) : Prop := RunInRange env s (x env s).2

namespace Stays

variable {x : SessionM α} {f : α → SessionM β}

lemma still (h : (x env s).2 = s) : Stays env s x := by
  rw [Stays, h]

lemma bind (hx : Stays env s x)
    (hf : ∀ a t, x env s = (.ok a, t) → RunInRange env s t → Stays env t (f a)) :
    Stays env s (x >>= f) := by
  rw [Stays, bind_apply]
  rw [Stays] at hx
  rcases hxs : x env s with ⟨e | a, t⟩
  · rwa [hxs] at hx
  · rw [hxs] at hx
    exact hx.trans (hf a t hxs hx)

lemma look {a : α} (hx : x env s = (.ok a, s)) (hf : Stays env s (f a)) :
    Stays env s (x >>= f) := by
  rw [Stays, bind_ok hx]
  exact hf

lemma discard (h : Stays env s x) : Stays env s (discard x) := by
  rw [discard_eq_bind]
  exact h.bind fun _ _ _ _ => .still rfl

lemma registration (hs : s.InRange) (hid : id < s.graph.size) (hfree : id ∉ s.registering)
    (hx : Stays env (s.beginRegistration id) x) :
    Stays env s (within (·.beginRegistration id) (·.endRegistration id) x) := by
  have hbegin := hs.beginRegistration hid
  have hend := (hx.inRange hbegin).endRegistration id
  exact (Relation.ReflTransGen.head ⟨.beginRegistration id hfree, hbegin⟩ hx).tail
    ⟨.endRegistration id, hend⟩

end Stays

lemma assign_stays (hs : s.InRange) (hid : id < s.graph.size) (hint : Option String) :
    Stays env s (assign id hint) := by
  cases hname : s.nameOf? id with
  | some name => exact .still (by rw [assign_named hname])
  | none =>
    rcases assign_unnamed hname hint with ⟨e, heq, h⟩ | ⟨name, heq, h, valid, free⟩
    · rw [Stays, heq]
      exact .single ⟨.refuse id hint hname h, hs.refuse⟩
    · rw [Stays, heq]
      exact .single ⟨.name id hint name hname h valid free, hs.refuse.give hid name⟩

lemma prepare_stays (hs : s.InRange) (hid : id < s.graph.size)
    (hdef : s.graph.isDefinitionType env.resolver.inlineNamedAny id) :
    Stays env s (prepare id) :=
  .single ⟨.prepare id hdef, hs.prepare hid⟩

lemma registerEach_stays {name : SchemaId → Option String → SessionM String}
    (hname : ∀ id hint t, t.Anchored g → id < t.graph.size → Stays env t (name id hint))
    (definitions : List (String × SchemaId)) (hs : s.Anchored g)
    (hdefinitions : ∀ entry ∈ definitions, entry.2 < s.graph.size) :
    Stays env s (registerEach name definitions) := by
  induction definitions generalizing s with
  | nil => exact .still rfl
  | cons entry rest ih =>
    obtain ⟨key, definition⟩ := entry
    obtain ⟨hlt, hrest⟩ := List.forall_mem_cons.mp hdefinitions
    have hactual := hs.extends_graph.closed.actual_lt hlt
    refine .look graph_apply (.look (isDefinitionType_apply _) ?_)
    split
    · rename_i hdef
      refine (prepare_stays hs.inRange hactual hdef).bind fun target t hprepare ht => ?_
      have htarget : target < t.graph.size := by
        have h := Session.prepare_target_lt hs.extends_graph hdef hactual
        rw [prepare_apply] at hprepare
        cases hprepare
        exact h
      refine (hname target (some key) t (hs.after ht) htarget).discard.bind fun _ u _ hu => ?_
      have hall := ht.trans hu
      refine ih (hs.after hall) fun entry hentry => ?_
      exact Nat.lt_of_lt_of_le (hrest entry hentry) (RunInRange.run hall).size_le
    · exact ih hs hrest

lemma typeNameWithin_stays (depth : ℕ) (hs : s.Anchored g) (hid : id < s.graph.size)
    (hint : Option String) : Stays env s (typeNameWithin depth id hint) := by
  induction depth generalizing id hint s with
  | zero => exact .still rfl
  | succ depth ih =>
    have hcarrier := hs.extends_graph.closed.carrier_lt hid
    refine .look get_apply ?_
    cases h : s.nameOf? (s.graph.actual (s.graph.removeNullability id)) with
    | some name => exact .still (by simp only [h, pure_apply])
    | none =>
      simp only [h]
      split
      · rename_i hfree
        have hnot : s.graph.carrier id ∉ s.registering := by simpa [Graph.carrier] using hfree
        refine Stays.bind (.registration hs.inRange hcarrier hnot ?_) fun _ t _ ht => ?_
        · have hbegin : (s.beginRegistration (s.graph.carrier id)).Anchored g :=
            ⟨hs.extends_graph.congr rfl rfl, hs.inRange.beginRegistration hcarrier⟩
          exact registerEach_stays (fun id hint t ht hid => ih ht hid hint) _ hbegin
            (hs.extends_graph.closed (s.graph.carrier id)).definitions
        · exact assign_stays (hs.after ht).inRange
            (Nat.lt_of_lt_of_le hcarrier (RunInRange.run ht).size_le) hint
      · exact assign_stays hs.inRange hcarrier hint

lemma typeName_stays (hs : s.Anchored g) (hid : id < s.graph.size) (hint : Option String) :
    Stays env s (typeName id hint) :=
  .look graph_apply (typeNameWithin_stays _ hs hid hint)

lemma register_stays {definitions : List (String × SchemaId)} (hs : s.Anchored g)
    (hdefinitions : ∀ entry ∈ definitions, entry.2 < s.graph.size) :
    Stays env s (register definitions) :=
  registerEach_stays (fun _ hint _ ht hid => typeName_stays ht hid hint) definitions hs hdefinitions

end SessionM

end SchemaTypes
