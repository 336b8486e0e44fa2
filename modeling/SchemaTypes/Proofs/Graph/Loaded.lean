import SchemaTypes.Proofs.Graph.Ranges
import SchemaTypes.Proofs.Schema.Decode

/-! Graphs that were loaded from a text. -/

namespace SchemaTypes.Document

variable {text : String} {d : Document}

lemma ofParsed_ok {parsed : Except ParseError (Keywords Schema)} (h : ofParsed parsed = .ok d) :
    ∃ root, parsed = .ok root ∧ ofKeywords root = .ok d := by
  obtain ⟨root, hroot, hd⟩ := Except.bind_eq_ok h
  cases parsed with
  | error e => cases hroot
  | ok root' =>
    cases hroot
    cases hd' : ofKeywords root with
    | error e =>
      rw [hd'] at hd
      cases hd
    | ok d' =>
      rw [hd'] at hd
      cases hd
      exact ⟨root, rfl, hd'⟩

lemma load_of_parsed {root : Keywords Schema}
    (hparsed : parseJson text = .ok root ∨ parseYaml text = .ok root)
    (hlower : ofKeywords root = .ok d) :
    (ofJson text = .ok d ∨ ofYaml text = .ok d) ∧ d.Represents root := by
  have hdistinct := hparsed.elim distinctKeys_of_parseJson distinctKeys_of_parseYaml
  have hroot : ofParsed (.ok root) = (ofKeywords root).mapError .reference := rfl
  refine ⟨hparsed.imp (fun h => ?_) fun h => ?_, represents_of_distinctKeys hdistinct hlower⟩
  · rw [ofJson, h, hroot, hlower]
    rfl
  · rw [ofYaml, h, hroot, hlower]
    rfl

lemma represents_of_load (hload : ofJson text = .ok d ∨ ofYaml text = .ok d) :
    ∃ root, d.Represents root := by
  rcases hload with h | h
  · obtain ⟨root, hroot, hd⟩ := ofParsed_ok h
    exact ⟨root, represents_of_distinctKeys (distinctKeys_of_parseJson hroot) hd⟩
  · obtain ⟨root, hroot, hd⟩ := ofParsed_ok h
    exact ⟨root, represents_of_distinctKeys (distinctKeys_of_parseYaml hroot) hd⟩

lemma Represents.size_pos {root : Keywords Schema} (h : d.Represents root) : 0 < d.graph.size :=
  Nat.zero_lt_of_lt (h.number_lt [] _ (.here _))

lemma Represents.reference_plain {root : Keywords Schema} (h : d.Represents root) {id : SchemaId}
    (href : (d.graph.node id).reference.isSome) :
    ∃ target isProperty, d.graph.node id = { reference := some target, isProperty } := by
  have hlt : id < d.graph.size :=
    Graph.lt_size_of_ne Node.reference fun hnone => by simp [hnone] at href
  obtain ⟨path, t, hat, rfl⟩ := h.number_surj id hlt
  have hnode := h.node path t hat
  cases t with
  | ref target =>
    obtain ⟨target, _, hnode⟩ := hnode
    exact ⟨target, _, hnode⟩
  | inline k =>
    rw [hnode.1.reference] at href
    cases href

lemma oneOf_of_reference (hload : ofJson text = .ok d ∨ ofYaml text = .ok d) (id : SchemaId)
    (href : (d.graph.node id).reference.isSome) : (d.graph.node id).oneOf = [] := by
  obtain ⟨root, hrepresents⟩ := represents_of_load hload
  obtain ⟨target, isProperty, hnode⟩ := hrepresents.reference_plain href
  rw [hnode]

end SchemaTypes.Document
