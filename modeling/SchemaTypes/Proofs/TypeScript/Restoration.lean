import SchemaTypes.Proofs.Session.Calls
import SchemaTypes.Proofs.Session.Restoration
import SchemaTypes.Proofs.TypeScript.Asking

/-! Between the calls on a session nothing is under way, whichever of them failed and wherever. -/

namespace SchemaTypes

namespace SessionM

variable {env : Environment} {s : Session}

namespace Restores

/-- What only asks how usages are spelled restores what each answer restores. -/
lemma asks {α ι : Type} {resolver : ι → Resolver} {x : ι → SessionM α}
    (hresolver : ∀ i id nullable hint t, Restores env t (resolver i id nullable hint))
    (hx : Asks resolver x) (i : ι) : Restores env s (x i) := by
  induction hx generalizing s with
  | usage id nullable hint => exact hresolver i id nullable hint s
  | pure a => exact .pure a
  | graph => rfl
  | read => rfl
  | bind _ _ ihx ihf => exact ihx.bind fun a _ _ => ihf a

end Restores

section

variable {resolve : Resolver}
  (hresolve : ∀ id nullable hint t, Restores env t (resolve id nullable hint))

include hresolve

lemma asks_restores {α : Type} {x : SessionM α} (hx : Asks (fun _ : Unit => resolve) fun _ => x) :
    Restores env s x :=
  .asks (fun _ => hresolve) hx ()

lemma resolveContainer_restores (id : SchemaId) (hint : Option String) :
    Restores env s (resolveContainer resolve id hint) := by
  apply Restores.look get_apply
  split
  · exact .pure _
  · exact (typeName_restores id _).bind fun _ _ _ => .pure _
  · rename_i hnot
    have hid : id ∉ s.expanding.map (·.1) := Entries.lookup_eq_none.mp hnot
    have hspell : Restores env (s.beginExpansion id hint) (spellContainer resolve id) :=
      asks_restores hresolve (.spellContainer id)
    refine (hspell.expansion hid).bind fun _ t _ => ?_
    apply Restores.look get_apply
    split
    · exact .pure _
    · exact .pure _

lemma resolveBare_restores (id : SchemaId) (hint : Option String) :
    Restores env s (resolveBare resolve id hint) := by
  have hname (id : SchemaId) : Restores env s (TypeExpr.ident <$> typeName id hint) := by
    rw [map_eq_pure_bind]
    exact (typeName_restores id hint).bind fun _ _ _ => .pure _
  apply Restores.look get_apply
  apply Restores.look read_apply
  simp only
  split
  · exact hname _
  · split
    · exact .pure _
    · split
      · exact hname _
      · split
        · exact resolveContainer_restores hresolve _ hint
        · exact asks_restores hresolve (.resolvePlain _)

end

lemma resolveWithin_restores (depth : ℕ) (id : SchemaId) (nullable : Bool) (hint : Option String) :
    Restores env s (resolveWithin depth id nullable hint) := by
  induction depth generalizing id nullable hint s with
  | zero => exact .throw _
  | succ depth ih =>
    have hresolve (id nullable hint) (t : Session) := @ih t id nullable hint
    refine (resolveBare_restores hresolve id hint).bind fun e t _ => ?_
    exact asks_restores hresolve (.spellNullable nullable e)

lemma resolve_restores (id : SchemaId) (nullable : Bool) (hint : Option String) (s : Session) :
    Restores env s (resolve id nullable hint) :=
  .look graph_apply (resolveWithin_restores _ id nullable hint)

lemma collectParts_restores (parts : Parts) (ids : List SchemaId) :
    Restores env s (collectParts parts ids) := by
  induction ids generalizing s parts with
  | nil => exact .pure _
  | cons id rest ih =>
    apply Restores.look graph_apply
    simp only
    split
    · exact (typeName_restores id none).bind fun _ _ _ => ih _
    · exact ih _

lemma declareInterface_restores (id : SchemaId) (name : String) :
    Restores env s (declareInterface id name) := by
  apply Restores.look graph_apply
  refine (collectParts_restores _ _).bind fun _ t _ => ?_
  have hfields {required : List String} {properties : List (String × SchemaId)}
      {discriminator : Option (Discriminator SchemaId)} :
      Restores env t (declareFields discriminator required properties) :=
    asks_restores resolve_restores (.declareFields (fun _ => rfl) _ _ _)
  exact hfields.bind fun _ _ _ => .pure _

/-- A declaration starts a list or dictionary over, without a look at what is spelled out. -/
lemma declare_restores (hs : s.expanding = []) (id : SchemaId) (name : String) :
    Restores env s (declare id name) := by
  have hchoice (choice : Choice) : Restores env s (declareChoice choice) :=
    asks_restores resolve_restores (.declareChoice (fun _ => rfl) choice)
  apply Restores.look get_apply
  simp only
  split
  · exact hchoice _
  · split
    · exact hchoice _
    · split
      · exact .pure _
      · split
        · have hspell : Restores env (s.beginExpansion id none) (spellContainer resolve id) :=
            asks_restores resolve_restores (.spellContainer id)
          exact (hspell.expansion (by simp [hs])).bind fun _ _ _ => .pure _
        · split
          · exact .pure _
          · exact declareInterface_restores id name

lemma declarationsWithin_restores (hs : s.expanding = []) (bound position : ℕ) :
    Restores env s (declarationsWithin bound position) := by
  induction bound generalizing s position with
  | zero => exact .throw _
  | succ bound ih =>
    apply Restores.look get_apply
    split
    · exact .pure _
    · refine (declare_restores hs _ _).bind fun _ t ht => ?_
      have hrest : t.expanding = [] := (congrArg Prod.snd ht).trans hs
      exact (ih hrest _).bind fun _ _ _ => .pure _

lemma emit_restores (hs : s.expanding = []) : Restores env s emit := by
  apply Restores.look read_apply
  have hdeclarations : Restores env s declarations :=
    .look graph_apply (declarationsWithin_restores hs _ 0)
  exact hdeclarations.bind fun _ _ _ => .pure _

end SessionM

open SessionM

lemma Call.run_restores {env : Environment} {s : Session} (call : Call)
    (h : call = .emit → s.expanding = []) : Restores env s call.run := by
  cases call with
  | typeName id hint => exact (typeName_restores id hint).discard
  | register definitions => exact register_restores definitions
  | resolve id nullable hint => exact (resolve_restores id nullable hint s).discard
  | dictionaryKey id => exact (asks_restores resolve_restores (.dictionaryKey id)).discard
  | dictionaryValue id => exact (asks_restores resolve_restores (.dictionaryValue id)).discard
  | variants choice =>
    have hvariants : Restores env s (SessionM.variants choice) :=
      .look graph_apply (asks_restores resolve_restores (.resolveVariants (fun _ => rfl) _))
    exact hvariants.discard
  | emit => exact (emit_restores (h rfl)).discard

lemma Session.after_underWay {env : Environment} (calls : List Call) {s : Session}
    (hs : s.expanding = []) : (s.after env calls).underWay = s.underWay := by
  induction calls generalizing s with
  | nil => rfl
  | cons call rest ih =>
    have hcall : (call.run env s).2.underWay = s.underWay := call.run_restores fun _ => hs
    exact (ih ((congrArg Prod.snd hcall).trans hs)).trans hcall

/-- Nothing is under way between calls, and each call, with a result or without one, forgets all
that it began. This also holds where the call is made in the middle of another one; only a file is
never written there. -/
theorem Session.calls_restore (d : Document) (env : Environment) (calls : List Call) (call : Call) :
    let s := ({ graph := d.graph } : Session).after env calls
    s.registering = [] ∧ s.expanding = [] ∧
      (call.run env s).2.registering = s.registering ∧
      (call.run env s).2.expanding = s.expanding ∧
      ∀ t : Session, (call = .emit → t.expanding = []) →
        (call.run env t).2.registering = t.registering ∧
        (call.run env t).2.expanding = t.expanding := by
  intro s
  have hs : s.underWay = ([], []) := after_underWay calls rfl
  have hcall (t : Session) (ht : call = .emit → t.expanding = []) :
      (call.run env t).2.registering = t.registering ∧
      (call.run env t).2.expanding = t.expanding :=
    Prod.mk.inj (call.run_restores ht)
  obtain ⟨hregistering, hexpanding⟩ := Prod.mk.inj hs
  obtain ⟨hregistering', hexpanding'⟩ := hcall s fun _ => hexpanding
  exact ⟨hregistering, hexpanding, hregistering', hexpanding', hcall⟩

end SchemaTypes
