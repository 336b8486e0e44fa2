import SchemaTypes.Proofs.Graph.Loaded
import SchemaTypes.Proofs.Schema.Congruence

/-! When a document has no graph. A target that is named in the document stands for nothing, or a
definition below a dictionary key got no number, since those are passed over when definitions are
numbered. -/

namespace SchemaTypes

def DiscriminatorForm.targets : DiscriminatorForm → List String
  | name _ => []
  | object d => d.mapping.map (·.2)

namespace Keywords

variable (root : Keywords Schema)

def Refers (target : String) : Prop := ∃ path, (Schema.inline root).At path (.ref target)

def Maps (target : String) : Prop :=
  ∃ path k form, (Schema.inline root).At path (.inline k) ∧ k.discriminator = some form ∧
    target ∈ form.targets

/-- All that the document names by a reference or in a discriminator is in the document. -/
structure Linked : Prop where
  references : ∀ target, root.Refers target → ∃ id, root.Points target id
  mapped : ∀ target, root.Maps target → ∃ id, root.Denotes target id

/-- A definition stands there, below a dictionary key. -/
def Hides (path : Path) : Prop :=
  (∃ t, (Schema.inline root).At path t) ∧ path.isDefinition ∧ .dictionaryKey ∈ path

/-- What the document has that an error speaks of. -/
inductive Blames : ReferenceError → Prop
  | format (target : String) (h : root.Refers target) (hhead : target.toList.head? ≠ some '#') :
      Blames (.invalidFormat target)
  | reference (target : String) (h : root.Refers target) (hnone : ¬ ∃ id, root.Points target id) :
      Blames (.targetNotFound target)
  | mapped (target : String) (h : root.Maps target) (hnone : ¬ ∃ id, root.Denotes target id) :
      Blames (.targetNotFound target)
  | hidden (target : String) (path : Path) (h : root.Refers target ∨ root.Maps target)
      (hhides : root.Hides path) (htext : Path.text path = Pointer.dropTrailingSlashes target) :
      Blames (.targetNotFound target)
  | unnumbered (path : Path) (hhides : root.Hides path) :
      Blames (.targetNotFound (Path.text path))

variable {root}

lemma Blames.not_linked {e : ReferenceError} (h : root.Blames e)
    (hhides : ∀ path, ¬ root.Hides path) : ¬ root.Linked := by
  intro hlinked
  cases h with
  | format target h hhead =>
    obtain ⟨_, path, t, hstart, _⟩ := hlinked.references target h
    exact hhead hstart
  | reference target h hnone => exact hnone (hlinked.references target h)
  | mapped target h hnone => exact hnone (hlinked.mapped target h)
  | hidden target path _ h => exact hhides path h
  | unnumbered path h => exact hhides path h

end Keywords

namespace Schema

def targets : Schema → List String :=
  fold (fun target => [target]) fun k =>
    (k.discriminator.map DiscriminatorForm.targets).getD [] ++
      k.children.flatMap fun (_, _, below) => below

lemma targets_inline (k : Keywords Schema) :
    (inline k).targets = (k.discriminator.map DiscriminatorForm.targets).getD [] ++
      k.children.flatMap fun child => child.2.targets := by
  rw [targets, fold_inline, Keywords.children_map, List.flatMap_map]
  rfl

lemma At.targets_subset {s t : Schema} {path : Path} (h : s.At path t) :
    t.targets ⊆ s.targets := by
  induction h with
  | here => exact List.Subset.refl _
  | @child k place s t path hmem _ ih =>
    rw [targets_inline]
    intro target htarget
    exact List.mem_append_right _ (List.mem_flatMap.mpr ⟨(place, s), hmem, ih htarget⟩)

variable {root : Keywords Schema}

lemma unnamed_of_targets (h : (inline root).targets = []) (target : String) :
    ¬ root.Refers target ∧ ¬ root.Maps target := by
  constructor
  · rintro ⟨path, hat⟩
    have hmem := hat.targets_subset (List.mem_singleton.mpr rfl)
    rw [h] at hmem
    cases hmem
  · rintro ⟨path, k, form, hat, hform, htarget⟩
    have hmem : target ∈ (inline k).targets := by
      rw [targets_inline, hform]
      exact List.mem_append_left _ htarget
    have hmem := hat.targets_subset hmem
    rw [h] at hmem
    cases hmem

lemma linked_of_targets (h : (inline root).targets = []) : root.Linked where
  references target hrefers := absurd hrefers (unnamed_of_targets h target).1
  mapped target hmaps := absurd hmaps (unnamed_of_targets h target).2

end Schema

namespace Scope

variable {root : Keywords Schema}

lemma lookup_or_hides {path : Path} {t : Schema} (hat : (Schema.inline root).At path t)
    (hpath : path = [] ∨ path.isDefinition) :
    (ofKeywords root).pointers.lookup (Path.text path) = some (root.number path) ∨
      root.Hides path := by
  rcases hpath with rfl | hdef
  · exact .inl (lookup_pointers List.mem_cons_self)
  · by_cases hkey : .dictionaryKey ∈ path
    · exact .inr ⟨⟨t, hat⟩, hdef, hkey⟩
    · have hdeclared : [] ++ path ∈ (Schema.inline root).declared [] :=
        Schema.declared_of_at hat hdef hkey
      exact .inl (lookup_pointers (List.mem_cons_of_mem _ hdeclared))

lemma hides_of_lookup {target : String} {id : SchemaId} (hid : root.Points target id)
    (h : (ofKeywords root).pointers.lookup (Pointer.dropTrailingSlashes target) = none) :
    ∃ path, root.Hides path ∧ Path.text path = Pointer.dropTrailingSlashes target := by
  obtain ⟨path, t, _, htext, hat, hpath, _⟩ := hid
  rcases lookup_or_hides hat hpath with hlookup | hhides
  · rw [← htext, hlookup] at h
    cases h
  · exact ⟨path, hhides, htext⟩

lemma blames_of_resolve {target : String} {e : ReferenceError} (hrefers : root.Refers target)
    (h : (ofKeywords root).resolve target = .error e) : root.Blames e := by
  rw [resolve] at h
  split at h
  case isTrue hhead =>
    cases h
    exact .format target hrefers (by simpa using hhead)
  case isFalse =>
    split at h
    case h_1 => cases h
    case h_2 hlookup =>
      cases h
      by_cases hpoints : ∃ id, root.Points target id
      · obtain ⟨id, hid⟩ := hpoints
        obtain ⟨path, hhides, htext⟩ := hides_of_lookup hid hlookup
        exact .hidden target path (.inl hrefers) hhides htext
      · exact .reference target hrefers hpoints

lemma blames_of_resolveMapped {target : String} {e : ReferenceError} (hmaps : root.Maps target)
    (h : (ofKeywords root).resolveMapped target = .error e) : root.Blames e := by
  by_cases hdenotes : ∃ id, root.Denotes target id
  case neg =>
    rw [resolveMapped] at h
    split at h
    case isTrue hhead =>
      rw [resolve, if_neg (by simp [hhead])] at h
      split at h
      · cases h
      · cases h
        exact .mapped target hmaps hdenotes
    case isFalse =>
      split at h
      · cases h
      · cases h
        exact .mapped target hmaps hdenotes
  case pos =>
    obtain ⟨id, hid⟩ := hdenotes
    rw [Keywords.Denotes] at hid
    rw [resolveMapped] at h
    split at h
    case isTrue hhead =>
      rw [if_pos hhead] at hid
      rw [resolve, if_neg (by simp [hhead])] at h
      split at h
      case h_1 => cases h
      case h_2 hlookup =>
        cases h
        obtain ⟨path, hhides, htext⟩ := hides_of_lookup hid hlookup
        exact .hidden target path (.inr hmaps) hhides htext
    case isFalse hhead =>
      rw [if_neg hhead] at hid
      rw [rootNames_eq, hid] at h
      cases h

end Scope

namespace Lowering

variable {γ δ : Type} {P : ReferenceError → Prop}

/-- Wherever the action is run, the errors that it ends with are of this kind. -/
def FailsWith (P : ReferenceError → Prop) (x : Lowering γ) : Prop :=
  ∀ g e, x g = .error e → P e

lemma FailsWith.pure (c : γ) : FailsWith P (pure c) := by
  intro g e h
  cases h

lemma FailsWith.throw {e : ReferenceError} (h : P e) : FailsWith P (throw e : Lowering γ) := by
  intro g e' h'
  cases h'
  exact h

lemma FailsWith.lift {x : Except ReferenceError γ} (h : ∀ e, x = .error e → P e) :
    FailsWith P (liftM x : Lowering γ) := by
  intro g e h'
  cases x with
  | error e' =>
    cases h'
    exact h e rfl
  | ok c => cases h'

lemma FailsWith.bind {x : Lowering γ} {f : γ → Lowering δ} (hx : FailsWith P x)
    (hf : ∀ c, FailsWith P (f c)) : FailsWith P (x >>= f) := by
  intro g e h
  cases hxg : x g with
  | error e' =>
    simp only [Bind.bind, StateT.bind, hxg, Except.bind] at h
    cases h
    exact hx g e hxg
  | ok result =>
    simp only [Bind.bind, StateT.bind, hxg, Except.bind] at h
    exact hf result.1 result.2 e h

lemma failsWith_traverse {α : Type} {k : Keywords α} {f : Place → α → Lowering SchemaId}
    (h : ∀ place a, (place, a) ∈ k.children → FailsWith P (f place a)) :
    FailsWith P (k.traverse f) := by
  have hcongruence : IsCongruence Lowering fun _ x _ => FailsWith P x :=
    ⟨.pure, fun hx hf => hx.bind hf⟩
  exact @IsCongruence.traverse _ _ _ hcongruence _ _ _ k f f h

variable {root : Keywords Schema} {path : Path}

lemma failsWith_discriminator {k : Keywords Schema}
    (hat : (Schema.inline root).At path (.inline k)) :
    FailsWith root.Blames
      (liftM ((Scope.ofKeywords root).lowerDiscriminator k.oneOf k.discriminator) :
        Lowering (Option (Discriminator SchemaId))) := by
  refine .lift fun e he => ?_
  rcases hform : k.discriminator with _ | property | ⟨property, targets⟩
  · rw [hform] at he
    cases he
  · rw [hform] at he
    cases he
  · rw [hform, Scope.lowerDiscriminator] at he
    cases targets with
    | nil =>
      rcases Except.bind_eq_error he with he | ⟨_, _, he⟩
      case inr => cases he
      -- Without a mapping the references among the alternatives are looked up again.
      obtain ⟨alternative, hmem, mapping, he⟩ := Except.exists_of_foldlM_error he
      rcases alternative with _ | target | _
      · cases he
      · rcases Except.bind_eq_error he with he | ⟨_, _, he⟩
        case inr => cases he
        obtain ⟨i, hi⟩ := List.mem_iff_getElem?.mp hmem
        have hbelow := hat.concat (Keywords.Child.oneOf hi).mem_children
        exact Scope.blames_of_resolve ⟨_, hbelow⟩ he
      · cases he
    | cons first rest =>
      rcases Except.bind_eq_error he with he | ⟨_, _, he⟩
      case inr => cases he
      obtain ⟨⟨value, target⟩, hmem, he⟩ := Except.exists_of_mapM_error he
      rcases Except.bind_eq_error he with he | ⟨_, _, he⟩
      case inr => cases he
      have htarget : target ∈ (first :: rest).map (·.2) := List.mem_map_of_mem hmem
      exact Scope.blames_of_resolveMapped ⟨path, k, _, hat, hform, htarget⟩ he

lemma failsWith_node (s : Schema) (hat : (Schema.inline root).At path s) (isProperty : Bool) :
    FailsWith root.Blames (node (Scope.ofKeywords root) s path isProperty) := by
  induction s using Schema.induct generalizing path isProperty with
  | ref target =>
    rw [node_ref]
    refine FailsWith.bind (.lift fun e he => ?_) fun _ => .pure _
    exact Scope.blames_of_resolve ⟨path, hat⟩ he
  | inline k ih =>
    rw [node_inline]
    refine (failsWith_traverse fun place s hmem => ?_).bind fun _ =>
      (failsWith_discriminator hat).bind fun _ => .pure _
    have hbelow := ih place s hmem (hat.concat hmem) place.isProperty
    cases hplace : place.isDefinition with
    | false =>
      rw [child_other hplace]
      refine hbelow.bind fun node => ?_
      intro g e h
      cases h
    | true =>
      rw [child_definition hplace, fill]
      have hdef : Path.isDefinition (path ++ [place]) := by simpa [Path.isDefinition] using hplace
      rcases Scope.lookup_or_hides (hat.concat hmem) (.inr hdef) with hlookup | hhides
      · rw [hlookup]
        refine hbelow.bind fun node => FailsWith.bind ?_ fun _ => .pure _
        intro g e h
        cases h
      · split
        · refine hbelow.bind fun node => FailsWith.bind ?_ fun _ => .pure _
          intro g e h
          cases h
        · exact .throw (.unnumbered _ hhides)

end Lowering

namespace Document

variable {root : Keywords Schema} {d : Document}

lemma blames_of_ofKeywords {e : ReferenceError} (h : ofKeywords root = .error e) :
    root.Blames e := by
  rcases Except.bind_eq_error h with h | ⟨_, _, h⟩
  · exact Lowering.failsWith_node _ (.here _) false _ e h
  · cases h

lemma Represents.linked (h : d.Represents root) : root.Linked := by
  constructor
  · rintro target ⟨path, hat⟩
    obtain ⟨id, hpoints, _⟩ := h.node path _ hat
    exact ⟨id, hpoints⟩
  · rintro target ⟨path, k, form, hat, hform, htarget⟩
    have hdiscriminator := (h.node path _ hat).1.discriminator
    rw [hform] at hdiscriminator
    rcases form with property | ⟨property, targets⟩
    · cases htarget
    · obtain ⟨⟨value, target⟩, hmem, rfl⟩ := List.mem_map.mp htarget
      cases targets with
      | nil => cases hmem
      | cons first rest =>
        obtain ⟨mapping, _, hmapping⟩ := hdiscriminator
        obtain ⟨entry, _, _, hdenotes⟩ := Except.exists_of_forall₂_left hmapping hmem
        exact ⟨entry.2, hdenotes⟩

lemma not_hides_of_ofKeywords (hkeys : (Schema.inline root).DistinctKeys)
    (h : ofKeywords root = .ok d) (path : Path) : ¬ root.Hides path := by
  rintro ⟨⟨t, hat⟩, hdef, hkey⟩
  have hmem := (fills_of_distinctKeys hkeys h).2.position path t hat
  rcases List.mem_append.mp hmem with hmem | hmem
  · rcases List.mem_cons.mp hmem with rfl | hmem
    · cases hkey
    · obtain ⟨q, rfl, hopen⟩ := Schema.dictionaryKey_not_mem hmem
      exact hopen hkey
  · obtain ⟨_, _, rfl, _, _, hother⟩ := Schema.placed_at hmem
    exact absurd hdef (by simp [hother])

/-- A document has a graph exactly if all that it names is in it and no definition stands below a
dictionary key. An error is about a target that the document names, or about such a definition,
which may be no fault of the document. -/
theorem lowers_iff {text : String}
    (hparsed : parseJson text = .ok root ∨ parseYaml text = .ok root) :
    ((∃ d, ofKeywords root = .ok d) ↔ root.Linked ∧ ∀ path, ¬ root.Hides path) ∧
      ∀ e, ofKeywords root = .error e → root.Blames e := by
  have hkeys : (Schema.inline root).DistinctKeys :=
    hparsed.elim distinctKeys_of_parseJson distinctKeys_of_parseYaml
  refine ⟨⟨?_, ?_⟩, fun e he => blames_of_ofKeywords he⟩
  · rintro ⟨d, hd⟩
    exact ⟨(represents_of_distinctKeys hkeys hd).linked, not_hides_of_ofKeywords hkeys hd⟩
  · rintro ⟨hlinked, hhides⟩
    cases hd : ofKeywords root with
    | ok d => exact ⟨d, rfl⟩
    | error e => exact absurd hlinked ((blames_of_ofKeywords hd).not_linked hhides)

def keyedText : String :=
  "\x7b\"x-dictionaryKey\":\x7b\"definitions\":" ++
    "\x7b\"A\":\x7b\"type\":\"string\"\x7d\x7d\x7d\x7d"

lemma keyed_fails :
    ∃ root, parseJson keyedText = .ok root ∧ (Schema.inline root).targets = [] ∧
      ∃ e, ofKeywords root = .error e ∧
        e.message = "reference target not found: #/x-dictionaryKey/definitions/A" := by
  decide +kernel

theorem keyed_lowers_iff :
    ∃ root, (parseJson keyedText = .ok root ∨ parseYaml keyedText = .ok root) ∧
      ((∃ d, ofKeywords root = .ok d) ↔ root.Linked ∧ ∀ path, ¬ root.Hides path) ∧
      ∀ e, ofKeywords root = .error e → root.Blames e := by
  obtain ⟨root, hroot, _⟩ := keyed_fails
  exact ⟨root, .inl hroot, lowers_iff (.inl hroot)⟩

theorem keyed_linked_but_fails :
    ∃ root, parseJson keyedText = .ok root ∧ root.Linked ∧
      (∀ target, ¬ root.Refers target ∧ ¬ root.Maps target) ∧
      ∃ e, ofKeywords root = .error e ∧
        e.message = "reference target not found: #/x-dictionaryKey/definitions/A" := by
  obtain ⟨root, hroot, htargets, hfails⟩ := keyed_fails
  exact ⟨root, hroot, Schema.linked_of_targets htargets, fun target =>
    Schema.unnamed_of_targets htargets target, hfails⟩

end Document

end SchemaTypes
