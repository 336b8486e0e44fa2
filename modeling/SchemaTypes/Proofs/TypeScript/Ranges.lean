import SchemaTypes.Proofs.Session.Hierarchies
import SchemaTypes.Proofs.Session.Ranges
import SchemaTypes.Proofs.TypeScript.Seeking
import SchemaTypes.Proofs.TypeScript.Termination

/-! No operation leaves a number behind that is not one of a node, at any point and whatever the
generator answers. Numbers that are none of the graph stand for anything and are not stored. -/

namespace SchemaTypes

open Session SessionM

namespace SessionM

variable {env : Environment} {s : Session} {g : Graph}

/-- While types are spelled and declared, numbers stay in range. -/
def ranging (env : Environment) (g : Graph) : Watch env where
  holds := Anchored g
  passes := RunInRange env
  run _ _ h := h.run
  refl _ _ := .refl
  trans _ _ _ h h' := h.trans h'
  typeName s id hint hs hid := by
    have hstays : Stays env s (SessionM.typeName id hint) :=
      typeName_stays hs (hid.lt hs.extends_graph) hint
    refine ⟨hstays, fun name t h => ?_⟩
    rw [Stays, h] at hstays
    exact hs.after hstays
  beginExpansion s id hint hs hid := by
    have hlt := (show s.Sought true id from .container hid).lt hs.extends_graph
    have hbegin := hs.inRange.beginExpansion hlt hint
    exact ⟨.single ⟨.beginExpansion id hint, hbegin⟩, hs.extends_graph.congr rfl rfl, hbegin⟩
  endExpansion s t id hs h := by
    have hend := ((hs.after h).inRange).endExpansion id
    exact ⟨h.tail ⟨.endExpansion id, hend⟩, fun ht => ⟨ht.extends_graph.congr rfl rfl, hend⟩⟩

end SessionM

namespace Call

variable {env : Environment} {s : Session} {g : Graph}

lemma run_stays (hs : s.Anchored g) (call : Call) (hcall : call.Within s.graph.size) :
    Stays env s call.run := by
  cases call with
  | typeName id hint => exact (typeName_stays hs hcall hint).discard
  | register definitions => exact register_stays hs hcall
  | resolve id nullable hint =>
    exact Stays.discard ((ranging env g).resolve id nullable hint s hs).1
  | dictionaryKey id =>
    exact Stays.discard ((ranging env g).asks (ranging env g).resolve (.dictionaryKey id) s hs).1
  | dictionaryValue id =>
    exact Stays.discard ((ranging env g).asks (ranging env g).resolve (.dictionaryValue id) s hs).1
  | variants choice =>
    exact Stays.discard ((ranging env g).asks (ranging env g).resolve
      (.bind .graph fun _ => .resolveVariants (fun _ => rfl) _) s hs).1
  | emit => exact Stays.discard ((ranging env g).emit s hs).1

end Call

namespace Session

variable {env : Environment} {s : Session} {g : Graph}

lemma Accepts.append {calls more : List Call} (h : s.Accepts env (calls ++ more)) :
    s.Accepts env calls ∧ (s.after env calls).Accepts env more := by
  induction calls generalizing s with
  | nil => exact ⟨trivial, h⟩
  | cons first rest ih =>
    obtain ⟨hrest, hmore⟩ := ih h.2
    exact ⟨⟨h.1, hrest⟩, hmore⟩

lemma after_stays {calls : List Call} (hs : s.Anchored g) (h : s.Accepts env calls) :
    RunInRange env s (s.after env calls) := by
  induction calls generalizing s with
  | nil => exact .refl
  | cons first rest ih =>
    have hfirst : RunInRange env s (first.run env s).2 := first.run_stays hs h.1
    exact hfirst.trans (ih (hs.after hfirst) h.2)

end Session

namespace Document

variable {text : String} {d : Document} {env : Environment}

/-- Calls with numbers of the graph, whether they succeed or fail, go through points at which
every number that is stored is one of the graph. -/
theorem numbers_in_range (hload : ofJson text = .ok d ∨ ofYaml text = .ok d) (calls : List Call)
    (call : Call) (hcalls : Session.Accepts env { graph := d.graph } (calls ++ [call])) :
    let start : Session := { graph := d.graph }
    start.InRange ∧ RunInRange env start (start.after env calls) ∧
      RunInRange env (start.after env calls) (start.after env (calls ++ [call])) := by
  intro start
  obtain ⟨root, hrepresents⟩ := represents_of_load hload
  obtain ⟨hfirst, hlast⟩ := hcalls.append
  have hstart : start.Anchored d.graph := .start hrepresents.closed
  have hrun := after_stays hstart hfirst
  refine ⟨hstart.inRange, hrun, ?_⟩
  rw [Session.after, Session.after, List.foldl_append]
  exact after_stays (hstart.after hrun) hlast

lemma animal_load : ∃ d, ofJson animalText = .ok d ∧ 1 < d.graph.size := by
  decide +kernel

theorem animal_numbers_in_range :
    ∃ d, ofJson animalText = .ok d ∧
      Session.Accepts (.ofSettings {}) { graph := d.graph } ([.register [("Animal", 1)]] ++ [.emit]) ∧
      let start : Session := { graph := d.graph }
      start.InRange ∧
        RunInRange (.ofSettings {}) start
          (start.after (.ofSettings {}) [.register [("Animal", 1)]]) ∧
        RunInRange (.ofSettings {}) (start.after (.ofSettings {}) [.register [("Animal", 1)]])
          (start.after (.ofSettings {}) ([.register [("Animal", 1)]] ++ [.emit])) := by
  obtain ⟨d, hload, hsize⟩ := animal_load
  have hcalls : Session.Accepts (.ofSettings {}) { graph := d.graph }
      ([.register [("Animal", 1)]] ++ [.emit]) :=
    ⟨List.forall_mem_singleton.mpr hsize, trivial, trivial⟩
  exact ⟨d, hload, hcalls, numbers_in_range (.inl hload) [.register [("Animal", 1)]] .emit hcalls⟩

end Document

end SchemaTypes
