import SchemaTypes.Proofs.TypeScript.Declarations

/-! Sequences of calls on one session. A call that fails leaves what it did, and the next one goes
on from there. -/

namespace SchemaTypes

inductive Call where
  | typeName (id : SchemaId) (hint : Option String)
  | register (definitions : List (String × SchemaId))
  | resolve (id : SchemaId) (nullable : Bool) (hint : Option String)
  | dictionaryKey (id : SchemaId)
  | dictionaryValue (id : SchemaId)
  | variants (choice : Choice)
  | emit

namespace Call

open SessionM

def run : Call → SessionM Unit
  | typeName id hint => discard (SessionM.typeName id hint)
  | register definitions => SessionM.register definitions
  | resolve id nullable hint => discard (SessionM.resolve id nullable hint)
  | dictionaryKey id => discard (SessionM.dictionaryKey SessionM.resolve id)
  | dictionaryValue id => discard (SessionM.dictionaryValue SessionM.resolve id)
  | variants choice => discard (SessionM.variants choice)
  | emit => discard SessionM.emit

lemma run_leads {env : Environment} {s : Session} (call : Call) :
    Leads env s call.run fun _ _ => True := by
  have hresolve : ∀ id nullable hint s, Spells env s (SessionM.resolve id nullable hint) :=
    fun id nullable hint _ => resolve_spells id nullable hint
  cases call with
  | typeName id hint => exact (typeName_leads id hint).discard
  | register definitions => exact register_leads definitions
  | resolve id nullable hint => exact (resolve_spells id nullable hint).discard
  | dictionaryKey id => exact (dictionaryKey_spells hresolve id).discard
  | dictionaryValue id => exact (dictionaryValue_spells hresolve id).discard
  | variants choice => exact (variants_spells choice).discard
  | emit => exact emit_leads.discard

end Call

namespace Session

variable {env : Environment}

def after (env : Environment) (s : Session) (calls : List Call) : Session :=
  calls.foldl (fun s call => (call.run env s).2) s

lemma run_after (s : Session) (calls : List Call) : Run env s (s.after env calls) := by
  induction calls generalizing s with
  | nil => exact .refl
  | cons call rest ih => exact (call.run_leads.1).trans (ih _)

/-- A call goes by steps, through points at which names stand apart and from which on they are
only added to; and there the generator is shown just these names as taken. -/
theorem names_stay_apart (d : Document) (env : Environment) (calls : List Call) (call : Call) :
    let start : Session := { graph := d.graph }
    Run env start (start.after env calls) ∧
      Run env (start.after env calls) (start.after env (calls ++ [call])) ∧
      ∀ s, Run env start s → s.NamesApart ∧
        (∀ id hint name, name ∈ (s.request id hint).taken ↔ name ∈ s.names) ∧
        ∀ t, Run env s t → s.types <+: t.types := by
  intro start
  refine ⟨run_after _ _, ?_, fun s hs => ?_⟩
  · rw [after, after, List.foldl_append]
    exact call.run_leads.1
  · have happart : s.NamesApart := hs.namesApart (.start d.graph)
    exact ⟨happart, fun _ _ => happart.taken, fun t ht => ht.types_prefix⟩

end Session

end SchemaTypes
