import SchemaTypes.Naming
import SchemaTypes.Proofs.Except
import SchemaTypes.Proofs.Graph.Growth
import Mathlib.Data.List.Nodup
import Mathlib.Data.List.Perm.Subperm
import Std.Data.String.ToNat

/-! Where names come from. Counting on from a taken name comes to a free one before there are more
numbers than names, so that a name is what the schema or its key says, perhaps with a number. -/

namespace SchemaTypes.Naming

open Text

lemma numbered_inj {base : String} {m n : ℕ} (h : numbered base m = numbered base n) : m = n := by
  rw [numbered, numbered, String.append_right_inj] at h
  exact Nat.repr_inj.mp h

lemma numbered_ne (base : String) (n : ℕ) : base ≠ numbered base n := by
  intro h
  have hlist : base.toList = base.toList ++ (toString n).toList := by
    rw [← String.toList_append]
    exact congrArg String.toList h
  have hnil : (toString n).toList = [] := List.self_eq_append_right.mp hlist
  have hdigits : (Nat.toDigits 10 n) ≠ [] := Nat.toDigits_ne_nil
  rw [← Nat.toList_repr] at hdigits
  exact hdigits hnil

/-- Of a name and those that are numbered from it, the first one that is not taken. -/
inductive LeastFree (taken : List String) (base : String) : String → Prop
  | base (hfree : base ∉ taken) : LeastFree taken base base
  | numbered (htaken : base ∈ taken) (n : ℕ) (hlow : 2 ≤ n) (hhigh : n ≤ taken.length + 1)
      (hfree : numbered base n ∉ taken)
      (hleast : ∀ m, 2 ≤ m → m < n → Naming.numbered base m ∈ taken) :
      LeastFree taken base (numbered base n)

/-- A taken name and as many numbered ones as there are taken names cannot all be taken. -/
lemma exists_numbered_free {taken : List String} {base : String} (htaken : base ∈ taken) :
    ∃ n ∈ List.range' 2 taken.length, numbered base n ∉ taken := by
  by_contra hnone
  push Not at hnone
  have hall : base :: (List.range' 2 taken.length).map (numbered base) ⊆ taken := by
    refine List.cons_subset.mpr ⟨htaken, fun name hname => ?_⟩
    obtain ⟨n, hn, rfl⟩ := List.mem_map.mp hname
    exact hnone n hn
  have hnodup : (base :: (List.range' 2 taken.length).map (numbered base)).Nodup := by
    refine List.nodup_cons.mpr ⟨fun hmem => ?_, ?_⟩
    · obtain ⟨n, _, heq⟩ := List.mem_map.mp hmem
      exact numbered_ne base n heq.symm
    · exact List.Nodup.map (fun _ _ h => numbered_inj h) List.nodup_range'
  have hle := (hnodup.subperm hall).length_le
  rw [List.length_cons, List.length_map, List.length_range'] at hle
  omega

lemma firstFree_least (taken : List String) (base : String) :
    LeastFree taken base (firstFree taken base) := by
  unfold firstFree
  split
  case isFalse hfree => exact .base (by simpa using hfree)
  case isTrue hcontains =>
    have htaken : base ∈ taken := by simpa using hcontains
    obtain ⟨free, hmem, hfree⟩ := exists_numbered_free htaken
    simp only
    cases hfind : ((List.range' 2 taken.length).map (numbered base)).find? (!taken.contains ·) with
    | none =>
      have hnone := List.find?_eq_none.mp hfind _ (List.mem_map_of_mem hmem)
      exact absurd hnone (by simpa using hfree)
    | some name =>
      -- What comes before the first free candidate is taken.
      obtain ⟨hname, i, hi, hget, hbefore⟩ := List.find?_eq_some_iff_getElem.mp hfind
      rw [List.length_map, List.length_range'] at hi
      simp only [List.getElem_map, List.getElem_range', Nat.one_mul] at hget hbefore
      subst hget
      refine .numbered htaken (2 + i) (Nat.le_add_right 2 i) (by omega) (by simpa using hname)
        fun m hlow hlt => ?_
      have htaken := hbefore (m - 2) (by omega)
      rw [Nat.add_sub_cancel' hlow] at htaken
      simpa using htaken

lemma LeastFree.not_mem {taken : List String} {base name : String}
    (h : LeastFree taken base name) : name ∉ taken := by
  cases h with
  | base hfree => exact hfree
  | numbered _ _ _ _ hfree => exact hfree

lemma firstFree_not_mem (taken : List String) (base : String) : firstFree taken base ∉ taken :=
  (firstFree_least taken base).not_mem

/-- The name that a schema brings itself: the pinned one, else its title. -/
def ownName (node : Node) : Option String := pinnedName node <|> node.title.bind notBlank

/-- What a key gives as a name. -/
def keyName (key : String) : String := ((notBlank (hintName key)).map typeIdentifier).getD anonymous

/-- A name is what the base is mapped to, or it is that and a number behind it. -/
def Derived (settings : NamingSettings) (base name : String) : Prop :=
  let target := (settings.mappings.lookup base).getD base
  name = target ∨ ∃ n, 2 ≤ n ∧ name = numbered target n

lemma ownName_grows {node node' : Node} (h : node.Grows node') : ownName node' = ownName node := by
  obtain ⟨parts, members, d, _, rfl⟩ := h
  rfl

variable {settings : NamingSettings} {node : Node} {request : NameRequest} {name text key : String}

/-- The text that a name is made of: what the schema brings itself, else the hint. -/
def nameText (node : Node) (hint : Option String) : Option String :=
  ownName node <|> (hint.map hintName).bind notBlank

lemma baseName_eq (node : Node) (hint : Option String) :
    baseName node hint = ((nameText node hint).map typeIdentifier).getD anonymous := by
  unfold baseName nameText ownName
  cases pinnedName node <;> rfl

lemma baseName_own (h : ownName node = some text) (hint : Option String) :
    baseName node hint = typeIdentifier text := by
  rw [baseName_eq, nameText, h, Option.orElse_eq_orElse, Option.orElse_some, Option.map_some,
    Option.getD_some]

lemma baseName_key (h : ownName node = none) (key : String) :
    baseName node (some key) = keyName key := by
  rw [baseName_eq, nameText, h, Option.orElse_eq_orElse, Option.orElse_none, Option.map_some,
    Option.bind_some, keyName]

lemma mappedName_eq_ok {base target : String} (h : mappedName settings base = .ok target) :
    target = (settings.mappings.lookup base).getD base := by
  unfold mappedName at h
  cases hlookup : settings.mappings.lookup base with
  | none =>
    rw [hlookup] at h
    cases h
    rfl
  | some mapped =>
    simp only [hlookup] at h
    split at h
    · cases h
      rfl
    · cases h

lemma mappedName_eq_error_iff {base : String} {e : NamingError} :
    mappedName settings base = .error e ↔ ∃ target, settings.mappings.lookup base = some target ∧
      isIdentifier target = false ∧ e = .invalidMapping base target := by
  unfold mappedName
  cases settings.mappings.lookup base with
  | none => simp
  | some target =>
    simp only [Option.some.injEq, exists_eq_left']
    cases isIdentifier target with
    | true => simp
    | false => simpa using eq_comm

/-- What the name of a request is made from: the base of the schema that is to be named. -/
def requestBase (request : NameRequest) : String :=
  baseName (request.graph.node request.schema) request.hint

lemma default_eq_error_iff {e : NamingError} :
    default settings request = .error e ↔ ∃ target,
      settings.mappings.lookup (requestBase request) = some target ∧ isIdentifier target = false ∧
        e = .invalidMapping (requestBase request) target := by
  rw [← mappedName_eq_error_iff]
  simp only [default, requestBase]
  cases mappedName settings (baseName (request.graph.node request.schema) request.hint) with
  | error e' => exact Iff.rfl
  | ok target => exact iff_of_false (by rintro ⟨⟩) (by rintro ⟨⟩)

/-- Of the names that are made from what the base is mapped to it is the first free one. -/
lemma default_leastFree (h : default settings request = .ok name) :
    LeastFree (request.taken ++ settings.reserved)
      ((settings.mappings.lookup (requestBase request)).getD (requestBase request)) name := by
  simp only [default] at h
  obtain ⟨target, hmapped, hname⟩ := Except.bind_eq_ok h
  cases hname
  rw [requestBase, ← mappedName_eq_ok hmapped]
  exact firstFree_least _ target

lemma default_derived (h : default settings request = .ok name) :
    Derived settings (requestBase request) name := by
  have hleast := default_leastFree h
  unfold Derived
  cases hleast with
  | base => exact .inl rfl
  | numbered _ n hlow => exact .inr ⟨n, hlow, rfl⟩

lemma Derived.isPrefix {base : String} (h : Derived settings base name)
    (hmappings : settings.mappings = []) : base.toList <+: name.toList := by
  rw [Derived, hmappings, List.lookup_nil, Option.getD_none] at h
  rcases h with rfl | ⟨n, _, rfl⟩
  · exact List.prefix_rfl
  · rw [numbered, String.toList_append]
    exact List.prefix_append _ _

lemma derived_of_own (hname : default settings request = .ok name)
    (hown : ownName (request.graph.node request.schema) = some text) :
    Derived settings (typeIdentifier text) name :=
  baseName_own hown request.hint ▸ default_derived hname

lemma derived_of_key (hname : default settings request = .ok name)
    (hown : ownName (request.graph.node request.schema) = none) (hhint : request.hint = some key) :
    Derived settings (keyName key) name := by
  have hderived := default_derived hname
  rwa [requestBase, hhint, baseName_key hown] at hderived

end SchemaTypes.Naming
