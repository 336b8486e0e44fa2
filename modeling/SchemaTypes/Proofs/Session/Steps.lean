import SchemaTypes.Session.TypeName
import Mathlib.Logic.Relation

/-! A session changes in small steps only, whatever an operation does and wherever it fails. What
every step keeps holds at every point of every operation. -/

namespace SchemaTypes

/-- One elementary change of a session. The generator is asked in the last two only. -/
inductive Session.Step (env : Environment) (s : Session) : Session → Prop
  | beginRegistration (id : SchemaId) (h : id ∉ s.registering) : Step env s (s.beginRegistration id)
  | endRegistration (id : SchemaId) : Step env s (s.endRegistration id)
  | beginExpansion (id : SchemaId) (hint : Option String) : Step env s (s.beginExpansion id hint)
  | endExpansion (id : SchemaId) : Step env s (s.endExpansion id)
  | prepare (id : SchemaId) (h : s.graph.isDefinitionType env.resolver.inlineNamedAny id) :
      Step env s (s.prepare id).2
  | refuse (id : SchemaId) (hint : Option String) (unnamed : s.nameOf? id = none)
      (h : ∀ name, env.generator (s.request id hint) = .ok name →
        Text.isIdentifier name = false ∨ name ∈ s.taken) :
      Step env s { s with requests := s.requests + 1 }
  | name (id : SchemaId) (hint : Option String) (name : String) (unnamed : s.nameOf? id = none)
      (h : env.generator (s.request id hint) = .ok name) (valid : Text.isIdentifier name)
      (free : name ∉ s.taken) :
      Step env s (({ s with requests := s.requests + 1 } : Session).give id name)

abbrev Session.Run (env : Environment) : Session → Session → Prop :=
  Relation.ReflTransGen (Session.Step env)

@[elab_as_elim]
lemma Session.Run.keeps {env : Environment} {s t : Session} {P : Session → Prop}
    (h : Session.Run env s t) (hstep : ∀ {s t}, Session.Step env s t → P s → P t) (hs : P s) :
    P t := by
  induction h with
  | refl => exact hs
  | tail _ hlast ih => exact hstep hlast ih

namespace SessionM

variable {α β : Type} {env : Environment} {s : Session}

@[simp] lemma pure_apply (a : α) : (pure a : SessionM α) env s = (.ok a, s) := rfl

@[simp] lemma throw_apply (e : Failure) : (throw e : SessionM α) env s = (.error e, s) := rfl

@[simp] lemma get_apply : (get : SessionM Session) env s = (.ok s, s) := rfl

@[simp] lemma set_apply (t : Session) : (set t : SessionM PUnit) env s = (.ok ⟨⟩, t) := rfl

@[simp] lemma modify_apply (f : Session → Session) :
    (modify f : SessionM PUnit) env s = (.ok ⟨⟩, f s) := rfl

@[simp] lemma read_apply : (read : SessionM Environment) env s = (.ok env, s) := rfl

@[simp] lemma graph_apply : graph env s = (.ok s.graph, s) := rfl

@[simp] lemma dialect_apply : dialect env s = (.ok env.resolver.dialect, s) := rfl

@[simp] lemma isDefinitionType_apply (id : SchemaId) :
    isDefinitionType id env s =
      (.ok (s.graph.isDefinitionType env.resolver.inlineNamedAny id), s) := rfl

@[simp] lemma prepare_apply (id : SchemaId) :
    prepare id env s = (.ok (s.prepare id).1, (s.prepare id).2) := rfl

lemma bind_apply (x : SessionM α) (f : α → SessionM β) :
    (x >>= f) env s =
      match x env s with
      | (.ok a, t) => f a env t
      | (.error e, t) => (.error e, t) := by
  change (ExceptT.bind (m := StateM Session) (x env) fun a => f a env) s = _
  simp only [ExceptT.bind, ExceptT.mk, bind, StateT.bind]
  rcases x env s with ⟨_ | a, t⟩ <;> rfl

lemma discard_eq_bind (x : SessionM α) : (discard x : SessionM PUnit) = x >>= fun _ => pure ⟨⟩ := by
  funext env s
  rw [bind_apply]
  change (ExceptT.map (m := StateM Session) (Function.const α PUnit.unit) (x env)) s = _
  simp only [ExceptT.map, ExceptT.mk, bind, StateT.bind]
  rcases x env s with ⟨_ | a, t⟩ <;> rfl

@[simp] lemma bind_ok {x : SessionM α} {f : α → SessionM β} {a : α} {t : Session}
    (h : x env s = (.ok a, t)) : (x >>= f) env s = f a env t := by
  rw [bind_apply, h]

lemma bind_eq_ok {x : SessionM α} {f : α → SessionM β} {b : β} {u : Session}
    (h : (x >>= f) env s = (.ok b, u)) :
    ∃ a t, x env s = (.ok a, t) ∧ f a env t = (.ok b, u) := by
  rw [bind_apply] at h
  rcases hx : x env s with ⟨_ | a, t⟩
  · rw [hx] at h
    cases h
  · exact ⟨a, t, rfl, by simpa [hx] using h⟩

lemma within_eq_ok {enter leave : Session → Session} {x : SessionM α} {a : α} {t : Session}
    (h : within enter leave x env s = (.ok a, t)) :
    ∃ u, x env (enter s) = (.ok a, u) ∧ t = leave u := by
  obtain ⟨hok, rfl⟩ := Prod.mk.inj h
  exact ⟨_, Prod.ext hok rfl, rfl⟩

/-- From `s` an action goes by steps, and a result of it has `Q` where it ends. -/
def Leads (env : Environment) (s : Session) (x : SessionM α) (Q : α → Session → Prop) : Prop :=
  Session.Run env s (x env s).2 ∧ ∀ a, (x env s).1 = .ok a → Q a (x env s).2

namespace Leads

variable {x : SessionM α} {f : α → SessionM β} {Q : α → Session → Prop} {R : β → Session → Prop}

lemma mono {Q' : α → Session → Prop} (h : Leads env s x Q)
    (hQ : ∀ a t, Session.Run env s t → Q a t → Q' a t) : Leads env s x Q' :=
  ⟨h.1, fun a ha => hQ a _ h.1 (h.2 a ha)⟩

lemma pure {a : α} (h : Q a s) : Leads env s (pure a) Q :=
  ⟨.refl, fun b hb => by simp only [pure_apply, Except.ok.injEq] at hb; exact hb ▸ h⟩

lemma throw {e : Failure} : Leads env s (throw e) Q :=
  ⟨.refl, fun a ha => by simp at ha⟩

lemma bind (hx : Leads env s x Q)
    (hf : ∀ a t, Session.Run env s t → Q a t → Leads env t (f a) R) : Leads env s (x >>= f) R := by
  obtain ⟨hrun, hres⟩ := hx
  rw [Leads, bind_apply]
  rcases hxs : x env s with ⟨_ | a, t⟩
  · rw [hxs] at hrun
    exact ⟨hrun, fun b hb => by simp at hb⟩
  · rw [hxs] at hrun hres
    obtain ⟨hrun', hres'⟩ := hf a t hrun (hres a rfl)
    exact ⟨hrun.trans hrun', hres'⟩

lemma forget (h : Leads env s x Q) : Leads env s x fun _ _ => True :=
  h.mono fun _ _ _ _ => trivial

lemma look {a : α} (hx : x env s = (.ok a, s)) (hf : Leads env s (f a) R) :
    Leads env s (x >>= f) R := by
  rw [Leads, bind_ok hx]
  exact hf

lemma result {a : α} {t : Session} (h : Leads env s x Q) (hx : x env s = (.ok a, t)) :
    Session.Run env s t ∧ Q a t := by
  obtain ⟨hrun, hres⟩ := h
  rw [hx] at hrun hres
  exact ⟨hrun, hres a rfl⟩

lemma equation (h : Leads env s x Q) : Leads env s x fun a t => x env s = (.ok a, t) :=
  ⟨h.1, fun _ ha => Prod.ext ha rfl⟩

lemma discard (h : Leads env s x Q) : Leads env s (discard x) fun _ _ => True := by
  rw [discard_eq_bind]
  exact h.bind fun _ _ _ _ => .pure trivial

lemma within {enter leave : Session → Session} (henter : Session.Step env s (enter s))
    (hleave : ∀ t, Session.Step env t (leave t)) (hx : Leads env (enter s) x Q)
    (hQ : ∀ a t, Q a t → Q a (leave t)) : Leads env s (within enter leave x) Q := by
  refine ⟨((Relation.ReflTransGen.single henter).trans hx.1).tail (hleave _), fun a ha => ?_⟩
  exact hQ a _ (hx.2 a ha)

end Leads

end SessionM

end SchemaTypes
