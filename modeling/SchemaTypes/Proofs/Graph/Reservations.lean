import SchemaTypes.Proofs.Graph.Targets

/-! The numbers that are kept for definitions. Each definition has a pointer of its own, from which
its name, its section and the schema that declares it can be read, so that none of those kept is
lost when they are written into one map. -/

namespace SchemaTypes

namespace Keywords

variable {root : Keywords Schema} {path : Path}

/-- A number is kept for the definition at the path. -/
def Reserves (root : Keywords Schema) (path : Path) : Prop :=
  (∃ name, root.Defines path name) ∧ .dictionaryKey ∉ path

lemma mem_declared_iff : path ∈ (Schema.inline root).declared [] ↔ root.Reserves path := by
  constructor
  · intro h
    obtain ⟨_, t, rfl, hat, _, hdef⟩ := Schema.declared_at h
    obtain ⟨_, rfl, hopen⟩ := Schema.dictionaryKey_not_mem h
    obtain ⟨name, hname⟩ := Path.isDefinition_iff.mp hdef
    exact ⟨⟨name, ⟨t, hat⟩, hname⟩, hopen⟩
  · rintro ⟨⟨name, ⟨t, hat⟩, hname⟩, hopen⟩
    exact Schema.declared_of_at hat (Path.isDefinition_iff.mpr ⟨name, hname⟩) hopen

lemma mem_root_declared_iff :
    path ∈ [] :: (Schema.inline root).declared [] ↔ path = [] ∨ root.Reserves path := by
  rw [List.mem_cons, mem_declared_iff]

end Keywords

namespace Path

lemma text_definition_inj {above above' : Path} {group group' : Section} {name name' : String}
    (h : Path.text (above ++ [.definition group name]) =
      Path.text (above' ++ [.definition group' name'])) :
    above = above' ∧ group = group' ∧ name = name' := by
  obtain ⟨habove, hplace⟩ := List.append_inj' (text_injective h) rfl
  cases hplace
  exact ⟨habove, rfl, rfl⟩

lemma text_ne_root {path : Path} {name : String} (h : path.definitionName? = some name) :
    Path.text path ≠ "#" := by
  intro hroot
  obtain rfl : path = [] := text_injective hroot
  cases h

end Path

namespace Scope

variable {root : Keywords Schema}

lemma pointers_keys : (ofKeywords root).pointers.map (·.1) =
    ([] :: (Schema.inline root).declared []).map Path.text := by
  have hpaths : (ofKeywords root).pointers.map (·.1) =
      (([] :: (Schema.inline root).declared []).zipIdx.map (·.1)).map Path.text := by
    rw [ofKeywords, List.map_map, List.map_map]
    rfl
  rw [hpaths, List.zipIdx_map_fst]

lemma pointers_ids :
    (ofKeywords root).pointers.map (·.2) = List.range (Document.reserved root).size := by
  have hindices : (ofKeywords root).pointers.map (·.2) =
      ([] :: (Schema.inline root).declared []).zipIdx.map (·.2) := by
    rw [ofKeywords, List.map_map]
    rfl
  rw [hindices, List.zipIdx_map_snd, Document.reserved_size, List.range_eq_range',
    List.length_cons]

/-- The pointers are kept apart, since the paths are. -/
lemma pointers_keys_nodup (hkeys : (Schema.inline root).DistinctKeys) :
    ((ofKeywords root).pointers.map (·.1)).Nodup := by
  rw [pointers_keys]
  exact (Keywords.positions_nodup hkeys).of_append_left.map fun _ _ => Path.text_injective

lemma mem_pointers_iff (hkeys : (Schema.inline root).DistinctKeys) {pointer : String}
    {id : SchemaId} :
    (pointer, id) ∈ (ofKeywords root).pointers ↔
      ∃ path, (path = [] ∨ root.Reserves path) ∧ pointer = Path.text path ∧
        id = root.number path := by
  simp only [← Keywords.mem_root_declared_iff]
  constructor
  · intro h
    obtain ⟨path, hpath, htext, hid⟩ :=
      of_lookup_pointers (Entries.lookup_of_mem (pointers_keys_nodup hkeys) h)
    exact ⟨path, hpath, htext.symm, hid⟩
  · rintro ⟨path, hpath, rfl, rfl⟩
    exact Entries.mem_of_lookup (lookup_pointers hpath)

end Scope

namespace Document

variable {root : Keywords Schema}

/-- Pointers tell positions apart. A segment is read back as it was written and holds no slash, the
pointer of a definition determines the schema that declares it, its section and its name, and it is
not that of the root. So the map of the pointers, as it is written entry by entry, has one entry for
the root and one for each definition that a number is kept for, with a node for each entry. -/
theorem pointers_identify {text : String}
    (hparsed : parseJson text = .ok root ∨ parseYaml text = .ok root) :
    (∀ segment,
      Pointer.escape segment = Pointer.replace "/" "~1" (Pointer.replace "~" "~0" segment) ∧
        Pointer.unescape segment = Pointer.replace "~0" "~" (Pointer.replace "~1" "/" segment) ∧
        Pointer.unescape (Pointer.escape segment) = segment ∧
        '/' ∉ (Pointer.escape segment).toList) ∧
      (∀ above group name above' group' name',
        Path.text (above ++ [.definition group name]) =
            Path.text (above' ++ [.definition group' name']) →
          above = above' ∧ group = group' ∧ name = name') ∧
      (∀ path name, root.Defines path name → Path.text path ≠ "#") ∧
      ((Scope.ofKeywords root).pointers.map (·.1)).Nodup ∧
      Entries.ofList (Scope.ofKeywords root).pointers = (Scope.ofKeywords root).pointers ∧
      (∀ pointer id, (pointer, id) ∈ (Scope.ofKeywords root).pointers ↔
        ∃ path, (path = [] ∨ root.Reserves path) ∧ pointer = Path.text path ∧
          id = root.number path) ∧
      (Scope.ofKeywords root).pointers.map (·.2) = List.range (reserved root).size := by
  have hkeys : (Schema.inline root).DistinctKeys :=
    hparsed.elim distinctKeys_of_parseJson distinctKeys_of_parseYaml
  have hnodup := Scope.pointers_keys_nodup hkeys
  refine ⟨fun segment => ?_, fun _ _ _ _ _ _ => Path.text_definition_inj,
    fun _ _ hdefines => Path.text_ne_root hdefines.2, hnodup, Entries.ofList_of_nodup hnodup,
    fun _ _ => Scope.mem_pointers_iff hkeys, Scope.pointers_ids⟩
  exact ⟨Pointer.escape_eq_replace segment, Pointer.unescape_eq_replace segment,
    Pointer.unescape_escape segment, Pointer.slash_not_mem_escape segment⟩

lemma escapedNames_reserved :
    ∃ root, parseJson escapedNamesText = .ok root ∧
      root.Reserves [.definition .defs "a/b", .definition .definitions "~"] := by
  obtain ⟨root, hroot, hreference, d, hd, _⟩ := escapedNames_load
  have hkeys := distinctKeys_of_parseJson hroot
  obtain ⟨_, hpoints, _⟩ :=
    (represents_of_distinctKeys hkeys hd).node _ _ (Schema.at_of_reference? hreference)
  obtain ⟨named, hnamed, hspells, _⟩ := referable_of_points hkeys hd hpoints
  have hname : Path.definitionName? [.definition .defs "a/b", .definition .definitions "~"] =
      some "~" := rfl
  obtain rfl := hspells.eq_of_definition hname
  obtain hnil | ⟨name, hdefines, _, hopen⟩ := hnamed
  · cases hnil
  · exact ⟨root, hroot, ⟨name, hdefines⟩, hopen⟩

/-- A name with a slash and one that is a tilde. -/
theorem escapedNames_identified :
    ∃ root, (parseJson escapedNamesText = .ok root ∨ parseYaml escapedNamesText = .ok root) ∧
      Entries.ofList (Scope.ofKeywords root).pointers = (Scope.ofKeywords root).pointers ∧
      ("#", root.number []) ∈ (Scope.ofKeywords root).pointers ∧
      ("#/$defs/a~1b/definitions/~0",
        root.number [.definition .defs "a/b", .definition .definitions "~"]) ∈
        (Scope.ofKeywords root).pointers ∧
      Path.text [.definition .defs "a/b", .definition .definitions "~"] ≠ "#" := by
  obtain ⟨root, hroot, hreserved⟩ := escapedNames_reserved
  obtain ⟨_, _, hother, _, hwritten, hentries, _⟩ := pointers_identify (.inl hroot)
  obtain ⟨name, hdefines⟩ := hreserved.1
  have htext : "#/$defs/a~1b/definitions/~0" =
      Path.text [.definition .defs "a/b", .definition .definitions "~"] := by
    decide +kernel
  exact ⟨root, .inl hroot, hwritten, (hentries _ _).mpr ⟨[], .inl rfl, rfl, rfl⟩,
    (hentries _ _).mpr ⟨_, .inr hreserved, htext, rfl⟩, hother _ _ hdefines⟩

end Document

end SchemaTypes
