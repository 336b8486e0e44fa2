import SchemaTypes.Proofs.Graph.Failure
import SchemaTypes.Proofs.Schema.Replacement
import Mathlib.Data.List.DropRight

/-! What references can say. A reference stands for the path whose pointer it spells, and slashes
behind the pointer do not count. So a definition with an empty name, whose pointer itself ends in a
slash, is never found by it. -/

namespace SchemaTypes

namespace Path

def definitionName? (path : Path) : Option String := path.getLast?.bind Place.definitionName?

/-- The text is the pointer of the path with any number of slashes behind it. -/
def Spells (path : Path) (target : String) : Prop :=
  ∃ n, target.toList = (Path.text path).toList ++ List.replicate n '/'

lemma definitionName?_eq_some {path : Path} {name : String} :
    path.definitionName? = some name ↔ ∃ above group, path = above ++ [.definition group name] := by
  constructor
  · intro h
    obtain ⟨place, hlast, hname⟩ := Option.bind_eq_some_iff.mp h
    obtain ⟨above, rfl⟩ := List.getLast?_eq_some_iff.mp hlast
    cases place with
    | definition group other =>
      cases hname
      exact ⟨above, group, rfl⟩
    | _ => cases hname
  · rintro ⟨above, group, rfl⟩
    simp [definitionName?, Place.definitionName?]

lemma isDefinition_iff {path : Path} :
    path.isDefinition ↔ ∃ name, path.definitionName? = some name := by
  rw [isDefinition, definitionName?]
  rcases path.getLast? with _ | place
  · simp
  · cases place <;> simp [Place.isDefinition, Place.definitionName?]

lemma text_definition (above : Path) (group : Section) (name : String) :
    (Path.text (above ++ [.definition group name])).toList =
      (Path.text above ++ "/" ++ group.path).toList ++ '/' :: Pointer.escapeChars name.toList := by
  rw [text_concat]
  change (_ ++ ("/" ++ group.path ++ "/" ++ Pointer.escape name)).toList = _
  simp [Pointer.escape]

lemma text_ends_slash {path : Path} {name : String} (h : path.definitionName? = some name) :
    (Path.text path).toList.getLast? = some '/' ↔ name = "" := by
  obtain ⟨above, group, rfl⟩ := definitionName?_eq_some.mp h
  rw [text_definition, List.getLast?_append_cons]
  constructor
  · intro hlast
    by_contra hne
    have hchars : name.toList ≠ [] := by simpa using hne
    have hescaped : Pointer.escapeChars name.toList ≠ [] := fun hnil =>
      hchars (Pointer.escapeChars_inj.mp hnil)
    rw [List.getLast?_cons_of_ne_nil hescaped] at hlast
    exact Pointer.slash_not_mem_escapeChars _ (List.mem_of_getLast? hlast)
  · rintro rfl
    rfl

lemma not_ends_slash {path : Path} {name : String} (h : path.definitionName? = some name)
    (hne : name ≠ "") : (Path.text path).toList.getLast? ≠ some '/' :=
  fun hlast => hne ((text_ends_slash h).mp hlast)

lemma head?_text (path : Path) : (Path.text path).toList.head? = some '#' := by
  rw [text_toList]
  rfl

end Path

namespace Pointer

lemma rdropWhile_slashes {pointer : List Char} (hend : pointer.getLast? ≠ some '/') (n : ℕ) :
    (pointer ++ List.replicate n '/').rdropWhile (· == '/') = pointer := by
  induction n with
  | zero =>
    rw [List.replicate_zero, List.append_nil, List.rdropWhile_eq_self_iff]
    intro hne hslash
    rw [List.getLast?_eq_some_getLast hne, eq_of_beq hslash] at hend
    exact hend rfl
  | succ n ih =>
    rw [List.replicate_succ', ← List.append_assoc, List.rdropWhile_concat_pos _ _ _ (by rfl), ih]

lemma dropTrailingSlashes_eq_iff {target pointer : String} :
    dropTrailingSlashes target = pointer ↔
      pointer.toList.getLast? ≠ some '/' ∧
        ∃ n, target.toList = pointer.toList ++ List.replicate n '/' := by
  have hdrop : (dropTrailingSlashes target).toList = target.toList.rdropWhile (· == '/') := by
    simp [dropTrailingSlashes, List.rdropWhile]
  constructor
  · rintro rfl
    rw [hdrop]
    constructor
    · intro hlast
      have hne : target.toList.rdropWhile (· == '/') ≠ [] := fun hnil => by simp [hnil] at hlast
      rw [List.getLast?_eq_some_getLast hne] at hlast
      exact List.rdropWhile_last_not _ _ hne (beq_iff_eq.mpr (Option.some.inj hlast))
    · refine ⟨(target.toList.rtakeWhile (· == '/')).length, ?_⟩
      have hslash (c : Char) (hc : c ∈ target.toList.rtakeWhile (· == '/')) : c = '/' :=
        eq_of_beq (List.mem_rtakeWhile_imp (p := fun c => c == '/') hc)
      rw [← List.eq_replicate_of_mem hslash, List.rdropWhile_append_rtakeWhile]
  · rintro ⟨hend, n, htarget⟩
    rw [← String.toList_inj, hdrop, htarget, rdropWhile_slashes hend]

end Pointer

namespace Path

lemma spells_iff {path : Path} {target : String}
    (hend : (Path.text path).toList.getLast? ≠ some '/') :
    path.Spells target ↔ Pointer.dropTrailingSlashes target = Path.text path := by
  rw [Pointer.dropTrailingSlashes_eq_iff, and_iff_right hend, Spells]

lemma Spells.head? {path : Path} {target : String} (h : path.Spells target) :
    target.toList.head? = some '#' := by
  obtain ⟨n, htarget⟩ := h
  rw [htarget, List.head?_append, head?_text, Option.some_or]

lemma Spells.unique {path other : Path} {target : String} (h : path.Spells target)
    (hend : (Path.text path).toList.getLast? ≠ some '/') (h' : other.Spells target)
    (hend' : (Path.text other).toList.getLast? ≠ some '/') : path = other :=
  text_injective (((spells_iff hend).mp h).symm.trans ((spells_iff hend').mp h'))

/-- Without its name the pointer of a definition is no pointer. -/
lemma text_ne_section (path above : Path) (group : Section) :
    Path.text path ≠ Path.text above ++ "/" ++ group.path := by
  intro h
  have htext : Path.text (path ++ [.items]) =
      Path.text (above ++ [.definition group "items"]) := by
    rw [← String.toList_inj, text_definition, text_concat, h, String.toList_append]
    rfl
  have hplaces := List.append_inj_right' (text_injective htext) rfl
  cases hplaces

lemma Spells.eq_of_definition {path named : Path} {name : String}
    (hname : path.definitionName? = some name) (h : named.Spells (Path.text path)) :
    named = path := by
  obtain ⟨n, h⟩ := h
  cases n with
  | zero =>
    rw [List.replicate_zero, List.append_nil, String.toList_inj] at h
    exact (text_injective h).symm
  | succ n =>
    -- The last slash is the one in front of the name, so that the name is empty.
    rw [List.replicate_succ', ← List.append_assoc] at h
    obtain rfl := (text_ends_slash hname).mp (by rw [h, List.getLast?_concat])
    obtain ⟨above, group, rfl⟩ := definitionName?_eq_some.mp hname
    rw [text_definition] at h
    have hsection := List.append_inj_left' h rfl
    cases n with
    | zero =>
      rw [List.replicate_zero, List.append_nil, String.toList_inj] at hsection
      exact absurd hsection.symm (text_ne_section named above group)
    | succ n =>
      have hend : (Path.text above ++ "/" ++ group.path).toList.getLast? = some 's' := by
        cases group <;> simp [Section.path]
      rw [hsection, List.replicate_succ', ← List.append_assoc, List.getLast?_concat] at hend
      cases hend

end Path

def Schema.reference? : Schema → Option String
  | ref target => some target
  | inline _ => none

lemma Schema.at_of_reference? {s : Schema} {path : Path} {target : String}
    (h : (s.get? path).bind reference? = some target) : s.At path (.ref target) := by
  obtain ⟨t, ht, hreference⟩ := Option.bind_eq_some_iff.mp h
  cases t with
  | ref other =>
    cases hreference
    exact at_of_get? ht
  | inline k => cases hreference

namespace Keywords

variable (root : Keywords Schema)

/-- A definition of that name stands at the path. -/
def Defines (path : Path) (name : String) : Prop :=
  (∃ t, (Schema.inline root).At path t) ∧ path.definitionName? = some name

/-- What references can name: the root, and a definition whose name is not empty unless it stands
below a dictionary key. -/
def Referable (path : Path) : Prop :=
  path = [] ∨ ∃ name, root.Defines path name ∧ name ≠ "" ∧ .dictionaryKey ∉ path

variable {root} {path : Path}

lemma Referable.declared (h : root.Referable path) :
    path ∈ [] :: (Schema.inline root).declared [] := by
  obtain rfl | ⟨name, ⟨⟨t, hat⟩, hname⟩, _, hopen⟩ := h
  · exact List.mem_cons_self
  · have hdeclared : [] ++ path ∈ (Schema.inline root).declared [] :=
      Schema.declared_of_at hat (Path.isDefinition_iff.mpr ⟨name, hname⟩) hopen
    exact List.mem_cons_of_mem _ hdeclared

lemma Referable.not_ends_slash (h : root.Referable path) :
    (Path.text path).toList.getLast? ≠ some '/' := by
  obtain rfl | ⟨name, ⟨_, hname⟩, hne, _⟩ := h
  · decide
  · exact Path.not_ends_slash hname hne

lemma referable_of_definition {t : Schema} (hat : (Schema.inline root).At path t)
    (hdef : path.isDefinition) (hopen : .dictionaryKey ∉ path)
    (hend : (Path.text path).toList.getLast? ≠ some '/') : root.Referable path := by
  obtain ⟨name, hname⟩ := Path.isDefinition_iff.mp hdef
  refine .inr ⟨name, ⟨⟨t, hat⟩, hname⟩, ?_, hopen⟩
  exact fun hempty => hend ((Path.text_ends_slash hname).mpr hempty)

lemma referable_of_declared (h : path ∈ [] :: (Schema.inline root).declared [])
    (hend : (Path.text path).toList.getLast? ≠ some '/') : root.Referable path := by
  rcases List.mem_cons.mp h with rfl | h
  · exact .inl rfl
  · obtain ⟨_, t, rfl, hat, _, hdef⟩ := Schema.declared_at h
    obtain ⟨_, rfl, hopen⟩ := Schema.dictionaryKey_not_mem h
    exact referable_of_definition hat hdef hopen hend

lemma Referable.number_inj {other : Path} (h : root.Referable path)
    (heq : root.number path = root.number other) : path = other :=
  (List.idxOf_inj (List.mem_append_left _ h.declared)).mp heq

end Keywords

namespace Scope

variable {root : Keywords Schema}

lemma resolve_eq_ok {target : String} {id : SchemaId} :
    (ofKeywords root).resolve target = .ok id ↔
      ∃ path, root.Referable path ∧ path.Spells target ∧ id = root.number path := by
  constructor
  · intro h
    rw [resolve] at h
    split at h
    case isTrue => cases h
    case isFalse =>
      split at h
      case h_2 => cases h
      case h_1 id' hlookup =>
        cases h
        obtain ⟨path, hdeclared, htext, hid⟩ := of_lookup_pointers hlookup
        obtain ⟨hend, hspells⟩ := Pointer.dropTrailingSlashes_eq_iff.mp htext.symm
        exact ⟨path, Keywords.referable_of_declared hdeclared hend, hspells, hid⟩
  · rintro ⟨path, hpath, hspells, rfl⟩
    have hdrop := (Path.spells_iff hpath.not_ends_slash).mp hspells
    rw [resolve, if_neg (by simp [hspells.head?]), hdrop, lookup_pointers hpath.declared]

lemma resolve_eq_error {target : String} (hhead : target.toList.head? = some '#')
    (h : ∀ id, (ofKeywords root).resolve target ≠ .ok id) :
    (ofKeywords root).resolve target = .error (.targetNotFound target) := by
  rw [resolve, if_neg (by simp [hhead])] at h ⊢
  split
  case h_1 id hlookup =>
    rw [hlookup] at h
    exact absurd rfl (h id)
  case h_2 => rfl

lemma resolve_definition {path : Path} {name : String} (h : root.Defines path name) :
    (ofKeywords root).resolve (Path.text path) =
      if name ≠ "" ∧ .dictionaryKey ∉ path then .ok (root.number path)
      else .error (.targetNotFound (Path.text path)) := by
  split
  case isTrue hfound =>
    exact resolve_eq_ok.mpr ⟨path, .inr ⟨name, h, hfound⟩, ⟨0, (List.append_nil _).symm⟩, rfl⟩
  case isFalse hfound =>
    refine resolve_eq_error (Path.head?_text path) fun id hok => ?_
    obtain ⟨named, hnamed, hspells, _⟩ := resolve_eq_ok.mp hok
    obtain rfl := hspells.eq_of_definition h.2
    obtain rfl | ⟨name', ⟨_, hname'⟩, hfound'⟩ := hnamed
    · cases h.2
    · obtain rfl : name' = name := Option.some.inj (hname'.symm.trans h.2)
      exact absurd hfound' hfound

end Scope

namespace Document

variable {root : Keywords Schema} {d : Document}

lemma referable_of_points (hkeys : (Schema.inline root).DistinctKeys)
    (h : ofKeywords root = .ok d) {target : String} {id : SchemaId}
    (hpoints : root.Points target id) :
    ∃ path, root.Referable path ∧ path.Spells target ∧ id = root.number path := by
  obtain ⟨path, t, _, htext, hat, hpath, rfl⟩ := hpoints
  obtain ⟨hend, hspells⟩ := Pointer.dropTrailingSlashes_eq_iff.mp htext.symm
  rcases hpath with rfl | hdef
  · exact ⟨[], .inl rfl, hspells, rfl⟩
  · have hopen : .dictionaryKey ∉ path := fun hkey =>
      not_hides_of_ofKeywords hkeys h path ⟨⟨t, hat⟩, hdef, hkey⟩
    exact ⟨path, Keywords.referable_of_definition hat hdef hopen hend, hspells, rfl⟩

/-- A reference finds the root and the definitions with a name, each by its own pointer, and it
finds nothing else: another reference is an error of the document. The pointer of a definition with
an empty name finds nothing, and slashes behind a pointer are passed over. -/
theorem references_spell_pointers {text : String}
    (hparsed : parseJson text = .ok root ∨ parseYaml text = .ok root) :
    (Scope.ofKeywords root).resolve "#" = .ok (root.number []) ∧
      (∀ path name, root.Defines path name →
        (Scope.ofKeywords root).resolve (Path.text path) =
          if name ≠ "" ∧ .dictionaryKey ∉ path then .ok (root.number path)
          else .error (.targetNotFound (Path.text path))) ∧
      (∀ target id, (Scope.ofKeywords root).resolve target = .ok id ↔
        ∃ path, root.Referable path ∧ path.Spells target ∧ id = root.number path) ∧
      (∀ path other, root.Referable path → root.number path = root.number other → path = other) ∧
      (∀ target, root.Refers target → (∀ path, root.Referable path → ¬ path.Spells target) →
        ∃ e, ofKeywords root = .error e) ∧
      ∀ d, ofKeywords root = .ok d → d.Represents root ∧
        ∀ path target, (Schema.inline root).At path (.ref target) →
          ∃ named, root.Referable named ∧ named.Spells target ∧
            d.graph.node (root.number path) =
              { reference := some (root.number named), isProperty := path.isProperty } := by
  have hkeys : (Schema.inline root).DistinctKeys :=
    hparsed.elim distinctKeys_of_parseJson distinctKeys_of_parseYaml
  have hreference (d : Document) (hd : ofKeywords root = .ok d) (path : Path) (target : String)
      (hat : (Schema.inline root).At path (.ref target)) :
      ∃ named, root.Referable named ∧ named.Spells target ∧
        d.graph.node (root.number path) =
          { reference := some (root.number named), isProperty := path.isProperty } := by
    obtain ⟨id, hpoints, hnode⟩ := (represents_of_distinctKeys hkeys hd).node path _ hat
    obtain ⟨named, hnamed, hspells, rfl⟩ := referable_of_points hkeys hd hpoints
    exact ⟨named, hnamed, hspells, hnode⟩
  have hroot : (Scope.ofKeywords root).resolve "#" = .ok (root.number []) :=
    Scope.resolve_eq_ok.mpr ⟨[], .inl rfl, ⟨0, rfl⟩, rfl⟩
  refine ⟨hroot, fun _ _ => Scope.resolve_definition, fun _ _ => Scope.resolve_eq_ok,
    fun _ _ hpath => hpath.number_inj, ?_,
    fun d hd => ⟨represents_of_distinctKeys hkeys hd, hreference d hd⟩⟩
  rintro target ⟨path, hat⟩ hunspelled
  cases hd : ofKeywords root with
  | error e => exact ⟨e, rfl⟩
  | ok d =>
    obtain ⟨named, hnamed, hspells, _⟩ := hreference d hd path target hat
    exact absurd hspells (hunspelled named hnamed)

def escapedNamesText : String :=
  "\x7b\"$defs\":\x7b\"a/b\":\x7b\"definitions\":" ++
    "\x7b\"~\":\x7b\"type\":\"string\"\x7d\x7d\x7d\x7d," ++
    "\"properties\":\x7b\"p\":\x7b\"$ref\":\"#/$defs/a~1b/definitions/~0\"\x7d\x7d\x7d"

lemma escapedNames_load :
    ∃ root, parseJson escapedNamesText = .ok root ∧
      ((Schema.inline root).get? [.property "p"]).bind Schema.reference? =
        some (Path.text [.definition .defs "a/b", .definition .definitions "~"]) ∧
      ∃ d, ofKeywords root = .ok d ∧ True := by
  decide +kernel

theorem escapedNames_spelled :
    ∃ root d, (parseJson escapedNamesText = .ok root ∨ parseYaml escapedNamesText = .ok root) ∧
      ofKeywords root = .ok d ∧
      d.graph.node (root.number [.property "p"]) =
        { reference := some (root.number [.definition .defs "a/b", .definition .definitions "~"])
          isProperty := true } := by
  obtain ⟨root, hroot, hreference, d, hd, _⟩ := escapedNames_load
  obtain ⟨_, _, _, _, _, hloaded⟩ := references_spell_pointers (.inl hroot)
  obtain ⟨named, _, hspells, hnode⟩ :=
    (hloaded d hd).2 _ _ (Schema.at_of_reference? hreference)
  have hname : Path.definitionName? [.definition .defs "a/b", .definition .definitions "~"] =
      some "~" := rfl
  obtain rfl := hspells.eq_of_definition hname
  exact ⟨root, d, .inl hroot, hd, hnode⟩

def emptyNameText : String :=
  "\x7b\"definitions\":\x7b\"\":\x7b\"type\":\"string\"\x7d\x7d," ++
    "\"properties\":\x7b\"p\":\x7b\"$ref\":\"#/definitions/\"\x7d\x7d\x7d"

lemma emptyName_fails :
    ∃ root, parseJson emptyNameText = .ok root ∧
      ((Schema.inline root).get? [.definition .definitions ""]).isSome ∧
      ((Schema.inline root).get? [.property "p"]).bind Schema.reference? =
        some (Path.text [.definition .definitions ""]) ∧
      ∃ e, ofKeywords root = .error e ∧
        e.message = "reference target not found: #/definitions/" := by
  decide +kernel

/-- The definition with the empty name is there, and the reference is its pointer. -/
theorem emptyName_not_found :
    ∃ root, parseJson emptyNameText = .ok root ∧ root.Defines [.definition .definitions ""] "" ∧
      (Schema.inline root).At [.property "p"] (.ref (Path.text [.definition .definitions ""])) ∧
      ∃ e, ofKeywords root = .error e ∧
        e.message = "reference target not found: #/definitions/" := by
  obtain ⟨root, hroot, hdefined, hreference, hfails⟩ := emptyName_fails
  obtain ⟨t, ht⟩ := Option.isSome_iff_exists.mp hdefined
  exact ⟨root, hroot, ⟨⟨t, Schema.at_of_get? ht⟩, rfl⟩, Schema.at_of_reference? hreference, hfails⟩

end Document

end SchemaTypes
