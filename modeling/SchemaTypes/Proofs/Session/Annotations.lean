import SchemaTypes.Proofs.Graph.Annotations
import SchemaTypes.Proofs.Session.Operations

/-! A session does the same whether its schemas have annotations or not, as long as the generator of
names does not look at them. -/

namespace SchemaTypes

/-- The names do not depend on annotations. -/
def NameGenerator.IgnoresAnnotations (generator : NameGenerator) : Prop :=
  ∀ request, generator { request with graph := request.graph.bare } = generator request

lemma lookup_withoutAnnotations {α : Type} {key : String} (hkey : annotates key = false)
    (entries : List (String × α)) :
    (withoutAnnotations entries).lookup key = entries.lookup key := by
  induction entries with
  | nil => rfl
  | cons entry rest ih =>
    obtain ⟨name, value⟩ := entry
    rw [withoutAnnotations] at ih ⊢
    cases hname : annotates name with
    | true =>
      have hne : (key == name) = false :=
        beq_eq_false_iff_ne.mpr fun h => by simp [h, hname] at hkey
      rw [List.filter_cons_of_neg (by simp [hname]), ih, List.lookup_cons, hne]
    | false =>
      rw [List.filter_cons_of_pos (by simp [hname]), List.lookup_cons, List.lookup_cons, ih]

lemma Naming.baseName_bare (node : Node) (hint : Option String) :
    baseName node.bare hint = baseName node hint := by
  have hpinned : pinnedName node.bare = pinnedName node :=
    congrArg (Option.bind · Json.text?)
      (lookup_withoutAnnotations (by decide) node.extensions)
  rw [baseName, baseName, hpinned]
  rfl

lemma Naming.default_ignoresAnnotations (settings : NamingSettings) :
    NameGenerator.IgnoresAnnotations (default settings) := by
  intro request
  simp only [default, Graph.node_bare, baseName_bare]

namespace SessionM

variable {α β : Type} {env : Environment}

/-- In a session without annotations the second action does what the first one does in the session
with them, and what it returns is freed of them. -/
def Erases (env : Environment) (free : α → α) (x y : SessionM α) : Prop :=
  ∀ s : Session, y env s.bare = ((x env s).1.map free, (x env s).2.bare)

/-- The action does and returns the same without annotations. -/
abbrev Ignores (env : Environment) (x : SessionM α) : Prop := Erases env (fun a => a) x x

namespace Erases

variable {free : α → α} {free' : β → β} {x y : SessionM α} {f f' : α → SessionM β}

lemma pure {a : α} : Erases env free (pure a) (pure (free a)) := fun _ => rfl

lemma throw {e : Failure} : Erases env free (throw e) (throw e) := fun _ => rfl

lemma get : Erases env Session.bare (MonadState.get) (MonadState.get) := fun _ => rfl

lemma set (s : Session) : Erases env (fun u => u) (MonadStateOf.set s) (MonadStateOf.set s.bare) :=
  fun _ => rfl

lemma graph : Erases env Graph.bare graph graph := fun _ => rfl

lemma bind (hx : Erases env free x y) (hf : ∀ a, Erases env free' (f a) (f' (free a))) :
    Erases env free' (x >>= f) (y >>= f') := by
  intro s
  have heq := hx s
  rw [bind_apply, bind_apply]
  rcases hxs : x env s with ⟨e | a, t⟩
  · rw [hxs] at heq
    rw [heq]
    rfl
  · rw [hxs] at heq
    rw [heq]
    exact hf a t

lemma reading {f f' : Environment → SessionM β} (h : Erases env free' (f env) (f' env)) :
    Erases env free' (MonadReader.read >>= f) (MonadReader.read >>= f') := by
  intro s
  rw [bind_ok read_apply, bind_ok read_apply]
  exact h s

lemma discard (hx : Erases env free x y) : Erases env (fun u => u) (discard x) (discard y) := by
  rw [discard_eq_bind, discard_eq_bind]
  exact hx.bind fun _ => .pure

lemma within {enter leave : Session → Session} (henter : ∀ s, (enter s).bare = enter s.bare)
    (hleave : ∀ s, (leave s).bare = leave s.bare) (hx : Erases env free x y) :
    Erases env free (within enter leave x) (within enter leave y) := by
  intro s
  have heq := hx (enter s)
  rw [henter] at heq
  change ((y env (enter s.bare)).1, leave (y env (enter s.bare)).2) = (_, (leave _).bare)
  rw [heq, hleave]
  rfl

lemma registration (hx : Erases env free x y) (id : SchemaId) :
    Erases env free (SessionM.within (·.beginRegistration id) (·.endRegistration id) x)
      (SessionM.within (·.beginRegistration id) (·.endRegistration id) y) :=
  hx.within (fun _ => rfl) fun _ => rfl

lemma expansion (hx : Erases env free x y) (id : SchemaId) (hint : Option String) :
    Erases env free (SessionM.within (·.beginExpansion id hint) (·.endExpansion id) x)
      (SessionM.within (·.beginExpansion id hint) (·.endExpansion id) y) :=
  hx.within (fun _ => rfl) fun _ => rfl

end Erases

lemma dialect_ignores : Ignores env dialect := fun _ => rfl

lemma isDefinitionType_ignores (id : SchemaId) : Ignores env (isDefinitionType id) := by
  intro s
  change (Except.ok (s.graph.bare.isDefinitionType _ id), s.bare) = _
  rw [Graph.isDefinitionType_bare]
  rfl

lemma prepare_ignores (id : SchemaId) : Ignores env (prepare id) := by
  intro s
  rw [prepare_apply, prepare_apply, Session.prepare_bare]
  rfl

lemma registerEach_ignores {name : SchemaId → Option String → SessionM String}
    (hname : ∀ id hint, Ignores env (name id hint)) (definitions : List (String × SchemaId)) :
    Ignores env (registerEach name definitions) := by
  induction definitions with
  | nil => exact .pure
  | cons entry rest ih =>
    obtain ⟨key, definition⟩ := entry
    refine Erases.graph.bind fun g => ?_
    simp only [Graph.actual_bare]
    refine (isDefinitionType_ignores _).bind fun isType => ?_
    split
    · refine (prepare_ignores _).bind fun target => ?_
      exact (hname target _).discard.bind fun _ => ih
    · exact ih

section

variable (henv : env.generator.IgnoresAnnotations)

include henv

lemma assign_ignores (id : SchemaId) (hint : Option String) : Ignores env (assign id hint) := by
  refine Erases.get.bind fun s => ?_
  simp only [Session.nameOf?_bare]
  cases s.nameOf? id with
  | some name => exact .pure
  | none =>
    refine (Erases.set _).bind fun _ => .reading ?_
    have hrequest : env.generator (s.bare.request id hint) = env.generator (s.request id hint) :=
      henv (s.request id hint)
    have htaken : s.bare.taken = s.taken := rfl
    rw [hrequest]
    cases env.generator (s.request id hint) with
    | error e => exact .throw
    | ok name =>
      simp only [htaken]
      split
      · exact .throw
      · split
        · exact .throw
        · have hgive : Ignores env (modify (·.give id name)) := fun _ => rfl
          exact hgive.bind fun _ => .pure

lemma typeNameWithin_ignores (depth : ℕ) (id : SchemaId) (hint : Option String) :
    Ignores env (typeNameWithin depth id hint) := by
  induction depth generalizing id hint with
  | zero => exact .throw
  | succ depth ih =>
    refine Erases.get.bind fun s => ?_
    simp only [Session.graph_bare, Session.nameOf?_bare, Session.registering_bare,
      Graph.removeNullability_bare, Graph.actual_bare, Graph.node_bare, Node.definitions_bare]
    cases s.nameOf? (s.graph.actual (s.graph.removeNullability id)) with
    | some name => exact .pure
    | none =>
      simp only
      split
      · have hregister := registerEach_ignores ih
          (s.graph.node (s.graph.actual (s.graph.removeNullability id))).definitions
        exact (hregister.registration _).bind fun _ => assign_ignores henv _ hint
      · exact assign_ignores henv _ hint

lemma typeName_ignores (id : SchemaId) (hint : Option String) : Ignores env (typeName id hint) := by
  refine Erases.graph.bind fun g => ?_
  rw [Graph.size_bare]
  exact typeNameWithin_ignores henv _ id hint

lemma register_ignores (definitions : List (String × SchemaId)) :
    Ignores env (register definitions) :=
  registerEach_ignores (typeName_ignores henv) definitions

end

end SessionM

end SchemaTypes
