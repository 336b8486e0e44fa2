import SchemaTypes.Proofs.Graph.Lowering
import SchemaTypes.Proofs.Schema.Decode

/-! The graph of a document that was read from a text. -/

namespace SchemaTypes.Document

/-- Loading is faithful: whatever schemas a text holds, the graph made of them represents them. A
definition whose name already stands in an earlier section has a node, but the node above does not
list it. -/
theorem represents_of_parsed {text : String} {root : Keywords Schema} {d : Document}
    (hparsed : parseJson text = .ok root ∨ parseYaml text = .ok root)
    (h : ofKeywords root = .ok d) : d.Represents root :=
  represents_of_distinctKeys (hparsed.elim distinctKeys_of_parseJson distinctKeys_of_parseYaml) h

def twoSectionsText : String :=
  "\x7b\"definitions\":\x7b\"A\":\x7b\"type\":\"string\"\x7d\x7d," ++
    "\"$defs\":\x7b\"A\":\x7b\"type\":\"number\"\x7d\x7d," ++
    "\"properties\":\x7b\"p\":\x7b\"$ref\":\"#/$defs/A\"\x7d\x7d\x7d"

lemma twoSections_load :
    ∃ root, parseJson twoSectionsText = .ok root ∧ ∃ d, ofKeywords root = .ok d ∧ True := by
  decide +kernel

theorem represents_twoSections :
    ∃ root d, (parseJson twoSectionsText = .ok root ∨ parseYaml twoSectionsText = .ok root) ∧
      ofKeywords root = .ok d ∧ d.Represents root := by
  obtain ⟨root, hroot, d, hd, _⟩ := twoSections_load
  exact ⟨root, d, .inl hroot, hd, represents_of_parsed (.inl hroot) hd⟩

theorem twoSections_unlisted :
    ∃ root, parseJson twoSectionsText = .ok root ∧ ∃ d, ofKeywords root = .ok d ∧
      .definition .defs "A" ∈ root.children.map (·.1) ∧
      ∀ entry ∈ (d.graph.node d.root).definitions,
        entry.2 ≠ root.number [.definition .defs "A"] := by
  decide +kernel

end SchemaTypes.Document
