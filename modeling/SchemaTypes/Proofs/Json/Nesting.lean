import SchemaTypes.Decode.JsonSource
import SchemaTypes.Proofs.Decode.Levels

/-! How deep JSON values nest. A value in which the keys of each object are in order is what it is
read as when nothing is known of its shape. -/

namespace SchemaTypes

open Decode

namespace Json

def isScalar : Json → Bool
  | array _ => false
  | object _ => false
  | _ => true

/-- Lists and objects nest at most so many levels deep, and the keys of each object are as asked. -/
inductive Within (keys : List String → Prop) : ℕ → Json → Prop
  | scalar {n : ℕ} {j : Json} (h : j.isScalar) : Within keys n j
  | array {n : ℕ} {items : List Json} (h : ∀ item ∈ items, Within keys n item) :
    Within keys (n + 1) (array items)
  | object {n : ℕ} {entries : List (String × Json)} (hkeys : keys (entries.map (·.1)))
    (h : ∀ entry ∈ entries, Within keys n entry.2) : Within keys (n + 1) (object entries)

abbrev Nests : ℕ → Json → Prop := Within fun _ => True

def Ascending (keys : List String) : Prop := keys.Pairwise (· < ·)

abbrev Canonical : ℕ → Json → Prop := Within Ascending

section

variable {keys : List String → Prop} {n : ℕ} {j : Json}

lemma Within.mono {more : ℕ} (h : j.Within keys n) (hle : n ≤ more) : j.Within keys more := by
  induction h generalizing more with
  | scalar h => exact .scalar h
  | array _ ih =>
    cases more with
    | zero => omega
    | succ more => exact .array fun item hitem => ih item hitem (Nat.le_of_succ_le_succ hle)
  | object hkeys _ ih =>
    cases more with
    | zero => omega
    | succ more =>
      exact .object hkeys fun entry hentry => ih entry hentry (Nat.le_of_succ_le_succ hle)

lemma Within.nests (h : j.Within keys n) : j.Nests n := by
  induction h with
  | scalar h => exact .scalar h
  | array _ ih => exact .array ih
  | object _ _ ih => exact .object trivial ih

lemma Within.items {items : List Json} (h : (Json.array items).Within keys n) :
    ∃ below, n = below + 1 ∧ ∀ item ∈ items, item.Within keys below := by
  cases h with
  | scalar h => cases h
  | array h => exact ⟨_, rfl, h⟩

lemma Within.entries {entries : List (String × Json)} (h : (Json.object entries).Within keys n) :
    ∃ below, n = below + 1 ∧ ∀ entry ∈ entries, entry.2.Within keys below := by
  cases h with
  | scalar h => cases h
  | object _ h => exact ⟨_, rfl, h⟩

end

end Json

namespace Decode.ValueReader

lemma rawItems_eq (items : List Json) : raw.rawItems items = items.map raw := by
  induction items with
  | nil => rfl
  | cons item rest ih => rw [raw.rawItems, ih, List.map_cons]

lemma rawEntries_eq (entries : List (String × Json)) :
    raw.rawEntries entries = entries.map fun entry => (.text entry.1, raw entry.2) := by
  induction entries with
  | nil => rfl
  | cons entry rest ih => rw [raw.rawEntries, ih, List.map_cons]

lemma raw_array (items : List Json) : raw (.array items) = .list (items.map raw) := by
  rw [raw, rawItems_eq]

lemma raw_object (entries : List (String × Json)) :
    raw (.object entries) = .map (entries.map fun entry => (.text entry.1, raw entry.2)) := by
  rw [raw, rawEntries_eq]

lemma nests_depth {n : ℕ} {j : Json} (h : j.Nests n) : j.Nests (raw j).depth := by
  induction h with
  | scalar h => exact .scalar h
  | @array _ items _ ih =>
    rw [raw_array, Raw.depth]
    refine .array fun item hitem => (ih item hitem).mono ?_
    exact Raw.itemsDepth_le_iff.mp (Nat.le_refl _) _ (List.mem_map_of_mem hitem)
  | @object _ entries _ _ ih =>
    rw [raw_object, Raw.depth]
    refine .object trivial fun entry hentry => (ih entry hentry).mono ?_
    have hmem : (Raw.text entry.1, raw entry.2) ∈
        entries.map fun entry => (Raw.text entry.1, raw entry.2) :=
      List.mem_map.mpr ⟨entry, hentry, rfl⟩
    exact (Raw.entriesDepth_le_iff.mp (Nat.le_refl _) _ hmem).2

end Decode.ValueReader

namespace Json

section

variable {key : String} {value : Json} {entries : List (String × Json)}

lemma mem_insertSorted {entry : String × Json} (h : entry ∈ insertSorted key value entries) :
    entry = (key, value) ∨ entry ∈ entries := by
  induction entries with
  | nil => exact .inl (List.mem_singleton.mp h)
  | cons first rest ih =>
    rw [insertSorted] at h
    split at h
    · exact (List.mem_cons.mp h).imp_right id
    · split at h
      · exact (List.mem_cons.mp h).imp_right (List.mem_cons_of_mem _)
      · rcases List.mem_cons.mp h with rfl | h
        · exact .inr List.mem_cons_self
        · exact (ih h).imp_right (List.mem_cons_of_mem _)

lemma ascending_insertSorted (h : Ascending (entries.map (·.1))) :
    Ascending ((insertSorted key value entries).map (·.1)) := by
  induction entries with
  | nil => exact List.pairwise_singleton _ _
  | cons first rest ih =>
    obtain ⟨hfirst, hrest⟩ := List.pairwise_cons.mp h
    rw [insertSorted]
    split
    case isTrue hlt =>
      refine List.pairwise_cons.mpr ⟨fun other hother => ?_, h⟩
      rcases List.mem_cons.mp hother with rfl | hother
      · exact hlt
      · exact String.lt_trans hlt (hfirst other hother)
    case isFalse hle =>
      split
      case isTrue heq =>
        subst heq
        exact List.pairwise_cons.mpr ⟨hfirst, hrest⟩
      case isFalse hne =>
        refine List.pairwise_cons.mpr ⟨fun other hother => ?_, ih hrest⟩
        obtain ⟨entry, hentry, rfl⟩ := List.mem_map.mp hother
        rcases mem_insertSorted hentry with rfl | hentry
        · exact Decidable.byContradiction fun hnot =>
            hne (String.le_antisymm hnot hle)
        · exact hfirst _ (List.mem_map_of_mem hentry)

lemma insertSorted_last (h : ∀ entry ∈ entries, entry.1 < key) :
    insertSorted key value entries = entries ++ [(key, value)] := by
  induction entries with
  | nil => rfl
  | cons first rest ih =>
    obtain ⟨hfirst, hrest⟩ := List.forall_mem_cons.mp h
    have hnot : ¬key < first.1 := fun hlt => String.lt_irrefl _ (String.lt_trans hlt hfirst)
    have hne : key ≠ first.1 := fun heq => String.lt_irrefl _ (heq ▸ hfirst)
    rw [insertSorted, if_neg hnot, if_neg hne, ih hrest, List.cons_append]

end

def insertEntry (es : List (String × Json)) (entry : String × Json) : List (String × Json) :=
  insertSorted entry.1 entry.2 es

lemma sortedObject_eq (entries : List (String × Json)) :
    sortedObject entries = object (entries.foldl insertEntry []) := rfl

lemma sortedObject_ascending {entries : List (String × Json)}
    (h : Ascending (entries.map (·.1))) : sortedObject entries = object entries := by
  have hfold (before later : List (String × Json)) (h : Ascending ((before ++ later).map (·.1))) :
      later.foldl insertEntry before = before ++ later := by
    induction later generalizing before with
    | nil => simp
    | cons entry later ih =>
      have hbefore : ∀ other ∈ before, other.1 < entry.1 := by
        rw [Ascending, List.map_append, List.pairwise_append] at h
        exact fun other hother => h.2.2 _ (List.mem_map_of_mem hother) _ List.mem_cons_self
      rw [List.foldl_cons, insertEntry, insertSorted_last hbefore, ih]
      · simp
      · simpa using h
  rw [sortedObject_eq, hfold [] entries h, List.nil_append]

lemma sortedObject_spec (entries : List (String × Json)) :
    ∃ es, sortedObject entries = object es ∧ Ascending (es.map (·.1)) ∧
      ∀ entry ∈ es, entry ∈ entries := by
  have hfold (later before : List (String × Json)) (h : Ascending (before.map (·.1))) :
      Ascending ((later.foldl insertEntry before).map (·.1)) ∧
        ∀ entry ∈ later.foldl insertEntry before, entry ∈ before ∨ entry ∈ later := by
    induction later generalizing before with
    | nil => exact ⟨h, fun entry hentry => .inl hentry⟩
    | cons first later ih =>
      have hinserted : Ascending ((insertSorted first.1 first.2 before).map (·.1)) :=
        ascending_insertSorted h
      obtain ⟨hsorted, hmem⟩ := ih _ hinserted
      refine ⟨hsorted, fun entry hentry => ?_⟩
      rcases hmem entry hentry with hentry | hentry
      · rcases mem_insertSorted hentry with rfl | hentry
        · exact .inr List.mem_cons_self
        · exact .inl hentry
      · exact .inr (List.mem_cons_of_mem _ hentry)
  obtain ⟨hsorted, hmem⟩ := hfold entries [] List.Pairwise.nil
  refine ⟨_, rfl, hsorted, fun entry hentry => (hmem entry hentry).resolve_left ?_⟩
  exact List.not_mem_nil

end Json

namespace Decode.Raw

lemma mem_jsonItems {items : List Raw} {js : List Json} (h : jsonItems? items = some js) :
    ∀ j ∈ js, ∃ item ∈ items, item.json? = some j := by
  induction items generalizing js with
  | nil =>
    cases h
    simp
  | cons item rest ih =>
    rw [jsonItems?] at h
    obtain ⟨j, hj, h⟩ := Option.bind_eq_some_iff.mp h
    obtain ⟨js, hjs, h⟩ := Option.bind_eq_some_iff.mp h
    cases h
    refine List.forall_mem_cons.mpr ⟨⟨item, List.mem_cons_self, hj⟩, fun j' hj' => ?_⟩
    obtain ⟨item', hmem, hitem'⟩ := ih hjs j' hj'
    exact ⟨item', List.mem_cons_of_mem _ hmem, hitem'⟩

lemma mem_jsonEntries {entries : List (Raw × Raw)} {es : List (String × Json)}
    (h : jsonEntries? entries = some es) :
    ∀ e ∈ es, ∃ entry ∈ entries, entry.2.json? = some e.2 := by
  induction entries generalizing es with
  | nil =>
    cases h
    simp
  | cons entry rest ih =>
    rw [jsonEntries?] at h
    obtain ⟨key, _, h⟩ := Option.bind_eq_some_iff.mp h
    obtain ⟨j, hj, h⟩ := Option.bind_eq_some_iff.mp h
    obtain ⟨es, hes, h⟩ := Option.bind_eq_some_iff.mp h
    cases h
    refine List.forall_mem_cons.mpr ⟨⟨entry, List.mem_cons_self, hj⟩, fun e he => ?_⟩
    obtain ⟨entry', hmem, hentry'⟩ := ih hes e he
    exact ⟨entry', List.mem_cons_of_mem _ hmem, hentry'⟩

/-- What is read with nothing known of its shape has its keys in order. -/
lemma canonical_of_json {n : ℕ} {r : Raw} {j : Json} (hdepth : r.depth ≤ n)
    (h : r.json? = some j) : j.Canonical n := by
  induction n generalizing r j with
  | zero =>
    cases r with
    | list items =>
      obtain ⟨_, heq, _⟩ := list_depth hdepth
      cases heq
    | map entries =>
      obtain ⟨_, heq, _⟩ := map_depth hdepth
      cases heq
    | null | bool | int | float | nonfinite | text =>
      cases h
      exact .scalar rfl
  | succ n ih =>
    cases r with
    | list items =>
      obtain ⟨_, heq, hitems⟩ := list_depth hdepth
      cases heq
      rw [json?] at h
      obtain ⟨js, hjs, rfl⟩ := Option.map_eq_some_iff.mp h
      refine .array fun j hj => ?_
      obtain ⟨item, hmem, hitem⟩ := mem_jsonItems hjs j hj
      exact ih (hitems item hmem) hitem
    | map entries =>
      obtain ⟨_, heq, hentries⟩ := map_depth hdepth
      cases heq
      rw [json?] at h
      obtain ⟨es, hes, rfl⟩ := Option.map_eq_some_iff.mp h
      obtain ⟨sorted, heq, hsorted, hsub⟩ := Json.sortedObject_spec es
      rw [heq]
      refine .object hsorted fun e he => ?_
      obtain ⟨entry, hmem, hentry⟩ := mem_jsonEntries hes e (hsub e he)
      exact ih (hentries entry hmem) hentry
    | null | bool | int | float | nonfinite | text =>
      cases h
      exact .scalar rfl

lemma json_raw {n : ℕ} {j : Json} (h : j.Canonical n) : (ValueReader.raw j).json? = some j := by
  induction h with
  | @scalar _ j h =>
    cases j with
    | array | object => cases h
    | null | bool | int | float | string => rfl
  | @array _ items _ ih =>
    have hitems : jsonItems? (items.map ValueReader.raw) = some items := by
      clear * - ih
      induction items with
      | nil => rfl
      | cons item rest hrest =>
        obtain ⟨hitem, ih⟩ := List.forall_mem_cons.mp ih
        rw [List.map_cons, jsonItems?, hitem, hrest ih]
        rfl
    rw [ValueReader.raw_array, json?, hitems]
    rfl
  | @object _ entries hkeys _ ih =>
    have hentries :
        jsonEntries? (entries.map fun entry => (.text entry.1, ValueReader.raw entry.2)) =
          some entries := by
      clear * - ih
      induction entries with
      | nil => rfl
      | cons entry rest hrest =>
        obtain ⟨hentry, ih⟩ := List.forall_mem_cons.mp ih
        rw [List.map_cons, jsonEntries?, hentry, hrest ih]
        rfl
    rw [ValueReader.raw_object, json?, hentries, Option.map_some, Json.sortedObject_ascending hkeys]

end Decode.Raw

end SchemaTypes
