import SchemaTypes.Proofs.TypeScript.Declarations
import SchemaTypes.Proofs.TypeScript.Seeking

/-! What is kept while types are spelled and declared. Where nothing fails, a session is changed
there by asking for names and by remembering what is being spelled out, and in no other way. -/

namespace SchemaTypes.SessionM

variable {α β : Type} {env : Environment} {J : Session → Prop}

/-- The property is kept by giving names, and by beginning and ending to spell something out. -/
structure Renders (env : Environment) (J : Session → Prop) : Prop where
  typeName : ∀ s id hint name t, J s → SessionM.typeName id hint env s = (.ok name, t) → J t
  beginExpansion : ∀ s id hint, J s → J (s.beginExpansion id hint)
  endExpansion : ∀ s id, J s → J (s.endExpansion id)

/-- The property is kept if the action has a result. -/
def Keeps (env : Environment) (J : Session → Prop) (x : SessionM α) : Prop :=
  ∀ s a t, J s → x env s = (.ok a, t) → J t

namespace Keeps

variable {x : SessionM α} {f : α → SessionM β}

lemma still (h : ∀ s, (x env s).2 = s) : Keeps env J x := by
  intro s a t hs hx
  rw [← h s, hx] at hs
  exact hs

lemma pure (a : α) : Keeps env J (pure a) := .still fun _ => rfl

lemma read : Keeps env J (MonadReader.read : SessionM Environment) := .still fun _ => rfl

lemma graph : Keeps env J SessionM.graph := .still fun _ => rfl

lemma bind (hx : Keeps env J x) (hf : ∀ a, Keeps env J (f a)) : Keeps env J (x >>= f) := by
  intro s b u hs h
  obtain ⟨a, t, hxs, hft⟩ := bind_eq_ok h
  exact hf a t b u (hx s a t hs hxs) hft

end Keeps

namespace Renders

variable (h : Renders env J)

include h

lemma named (id : SchemaId) (hint : Option String) : Keeps env J (SessionM.typeName id hint) :=
  fun s name t => h.typeName s id hint name t

def watch : Watch env :=
  .keeping J (fun s id hint name t hs _ => h.typeName s id hint name t hs) h.beginExpansion
    h.endExpansion

/-- Each declaration begins where the property holds. -/
lemma declarationsWithin (bound position : ℕ) {s t : Session} {ds : List Declaration} (hs : J s)
    (hds : SessionM.declarationsWithin bound position env s = (.ok ds, t)) :
    J t ∧ List.Forall₂ (fun entry decl => ∃ u v, Session.Run env s u ∧ J u ∧ entry ∈ u.types ∧
      SessionM.declare entry.1 entry.2 env u = (.ok decl, v) ∧ Session.Run env v t)
        (t.types.drop position) ds := by
  induction bound generalizing s position ds with
  | zero => cases hds
  | succ bound ih =>
    cases hentry : s.types[position]? with
    | none =>
      rw [declarationsWithin_past hentry] at hds
      cases hds
      rw [List.drop_eq_nil_of_le (List.getElem?_eq_none_iff.mp hentry)]
      exact ⟨hs, .nil⟩
    | some entry =>
      obtain ⟨id, name⟩ := entry
      obtain ⟨decl, u, rest, hdeclare, hwithin, rfl, hfirst, hlater⟩ :=
        declarationsWithin_eq_ok hentry hds
      have hmem := List.mem_of_getElem? hentry
      have hu := (h.watch.declare name hs (Session.nameOf?_ne_none hmem)).2 decl u hdeclare
      obtain ⟨hv, hall⟩ := ih (position + 1) hu hwithin
      rw [Session.Run.drop_types (hfirst.trans hlater) hentry]
      refine ⟨hv, .cons ⟨s, u, .refl, hs, hmem, hdeclare, hlater⟩
        (hall.imp fun entry decl hbetween => ?_)⟩
      obtain ⟨u', v', hu', hrest'⟩ := hbetween
      exact ⟨u', v', hfirst.trans hu', hrest'⟩

lemma emit {s t : Session} {text : String} (hs : J s)
    (hemit : SessionM.emit env s = (.ok text, t)) :
    ∃ ds, text = fileText env.typescript.exported ds ∧ J t ∧
      List.Forall₂ (fun entry decl => ∃ u v, Session.Run env s u ∧ J u ∧ entry ∈ u.types ∧
        SessionM.declare entry.1 entry.2 env u = (.ok decl, v) ∧ Session.Run env v t)
          t.types ds := by
  rw [SessionM.emit, bind_ok read_apply] at hemit
  obtain ⟨ds, u, hds, hpure⟩ := bind_eq_ok hemit
  cases hpure
  rw [declarations, bind_ok graph_apply] at hds
  obtain ⟨hu, hall⟩ := h.declarationsWithin _ 0 hs hds
  exact ⟨ds, rfl, hu, by rwa [List.drop_zero] at hall⟩

end Renders

end SchemaTypes.SessionM
