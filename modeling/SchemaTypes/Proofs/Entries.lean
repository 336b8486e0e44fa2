import SchemaTypes.Entries
import Mathlib.Data.List.Induction
import Mathlib.Data.List.Nodup
import Mathlib.Tactic.Common

/-! Maps as lists of entries: what is written holds each key once. -/

namespace SchemaTypes.Entries

variable {κ ν : Type} [BEq κ] [LawfulBEq κ]

lemma mem_keys_put {key k : κ} {value : ν} {entries : List (κ × ν)} :
    k ∈ (put key value entries).map (·.1) ↔ k = key ∨ k ∈ entries.map (·.1) := by
  induction entries with
  | nil => simp [put]
  | cons entry rest ih =>
    rw [put]
    split
    case isTrue h =>
      have heq := eq_of_beq h
      simp [heq]
    case isFalse h =>
      rw [List.map_cons, List.mem_cons, ih, List.map_cons, List.mem_cons]
      exact or_left_comm

lemma put_keys_nodup {key : κ} {value : ν} {entries : List (κ × ν)}
    (h : (entries.map (·.1)).Nodup) : ((put key value entries).map (·.1)).Nodup := by
  induction entries with
  | nil => exact List.nodup_singleton _
  | cons entry rest ih =>
    obtain ⟨hnot, hrest⟩ := List.nodup_cons.mp h
    rw [put]
    split
    case isTrue => exact h
    case isFalse hne =>
      refine List.nodup_cons.mpr ⟨fun hmem => ?_, ih hrest⟩
      rcases mem_keys_put.mp hmem with heq | hmem
      · exact hne (beq_iff_eq.mpr heq)
      · exact hnot hmem

lemma putAll_keys_nodup {entries : List (κ × ν)} (h : (entries.map (·.1)).Nodup)
    (more : List (κ × ν)) : ((putAll entries more).map (·.1)).Nodup := by
  induction more generalizing entries with
  | nil => exact h
  | cons entry more ih => exact ih (put_keys_nodup h)

lemma ofList_keys_nodup (entries : List (κ × ν)) : ((ofList entries).map (·.1)).Nodup := by
  have h : (([] : List (κ × ν)).map (·.1)).Nodup := List.nodup_nil
  exact putAll_keys_nodup h entries

lemma put_fresh {key : κ} {value : ν} {entries : List (κ × ν)} (h : key ∉ entries.map (·.1)) :
    put key value entries = entries ++ [(key, value)] := by
  induction entries with
  | nil => rfl
  | cons entry rest ih =>
    rw [List.map_cons, List.mem_cons, not_or] at h
    rw [put, if_neg (by simpa using Ne.symm h.1), ih h.2, List.cons_append]

lemma putAll_fresh {entries more : List (κ × ν)} (h : ((entries ++ more).map (·.1)).Nodup) :
    putAll entries more = entries ++ more := by
  induction more generalizing entries with
  | nil => exact (List.append_nil _).symm
  | cons entry more ih =>
    have hnot : entry.1 ∉ entries.map (·.1) := by
      rw [List.map_append, List.nodup_append] at h
      exact fun hmem => h.2.2 _ hmem _ List.mem_cons_self rfl
    have hstep : putAll entries (entry :: more) = putAll (put entry.1 entry.2 entries) more := rfl
    rw [hstep, put_fresh hnot, ih]
    · simp
    · simpa using h

lemma ofList_of_nodup {entries : List (κ × ν)} (h : (entries.map (·.1)).Nodup) :
    ofList entries = entries := putAll_fresh h

omit [LawfulBEq κ] in
lemma keys_prefix_put (key : κ) (value : ν) (entries : List (κ × ν)) :
    entries.map (·.1) <+: (put key value entries).map (·.1) := by
  induction entries with
  | nil => exact List.nil_prefix
  | cons entry rest ih =>
    rw [put]
    split
    · exact List.prefix_refl _
    · exact (List.prefix_cons_inj _).mpr ih

omit [LawfulBEq κ] in
lemma keys_prefix_putAll (entries more : List (κ × ν)) :
    entries.map (·.1) <+: (putAll entries more).map (·.1) := by
  induction more generalizing entries with
  | nil => exact List.prefix_refl _
  | cons entry more ih => exact (keys_prefix_put _ _ entries).trans (ih _)

lemma mem_keys_putAll {key : κ} {entries more : List (κ × ν)} :
    key ∈ (putAll entries more).map (·.1) ↔ key ∈ entries.map (·.1) ∨ key ∈ more.map (·.1) := by
  induction more generalizing entries with
  | nil => simp [putAll]
  | cons entry more ih =>
    have hcons : putAll entries (entry :: more) = putAll (put entry.1 entry.2 entries) more := rfl
    rw [hcons, ih, mem_keys_put, List.map_cons, List.mem_cons]
    tauto

omit [LawfulBEq κ] in
lemma putAll_append (entries first later : List (κ × ν)) :
    putAll entries (first ++ later) = putAll (putAll entries first) later :=
  List.foldl_append

lemma mem_keys_ofList {key : κ} {entries : List (κ × ν)} :
    key ∈ (ofList entries).map (·.1) ↔ key ∈ entries.map (·.1) := by
  rw [ofList, mem_keys_putAll]
  simp

lemma put_of_mem {key : κ} {value : ν} {entries : List (κ × ν)}
    (hnodup : (entries.map (·.1)).Nodup) (h : (key, value) ∈ entries) :
    put key value entries = entries := by
  induction entries with
  | nil => cases h
  | cons entry rest ih =>
    rw [List.map_cons, List.nodup_cons] at hnodup
    obtain ⟨hnot, hrest⟩ := hnodup
    rw [put]
    rcases List.mem_cons.mp h with rfl | h
    · rw [if_pos BEq.rfl]
    · have hkey : key ∈ rest.map (·.1) := List.mem_map_of_mem h
      have hne : entry.1 ≠ key := fun heq => hnot (heq.symm ▸ hkey)
      rw [if_neg (by simpa using hne), ih hrest h]

/-- If no key has two values, only repetitions are left out. -/
lemma ofList_eq_eraseDups [BEq ν] [LawfulBEq ν] {entries : List (κ × ν)}
    (h : ∀ a ∈ entries, ∀ b ∈ entries, a.1 = b.1 → a.2 = b.2) :
    ofList entries = entries.eraseDups := by
  induction entries using List.reverseRecOn with
  | nil => rfl
  | append_singleton entries entry ih =>
    have hbefore := ih fun a ha b hb =>
      h a (List.mem_append_left _ ha) b (List.mem_append_left _ hb)
    have hput : ofList (entries ++ [entry]) = put entry.1 entry.2 (ofList entries) :=
      putAll_append [] entries [entry]
    rw [hput, List.eraseDups_append, ← hbefore]
    by_cases hmem : entry ∈ entries
    · have hwritten : entry ∈ ofList entries := by rwa [hbefore, List.mem_eraseDups]
      rw [put_of_mem (ofList_keys_nodup entries) hwritten]
      simp [List.removeAll, hmem]
    · have hfresh : entry.1 ∉ (ofList entries).map (·.1) := by
        rw [mem_keys_ofList]
        intro hkey
        obtain ⟨other, hother, heq⟩ := List.mem_map.mp hkey
        have hvalue := h other (List.mem_append_left _ hother) entry (by simp) heq
        exact hmem (Prod.ext heq hvalue ▸ hother)
      rw [put_fresh hfresh]
      simp [List.removeAll, hmem, List.eraseDups_cons]

lemma mem_put_of_ne {key : κ} {value : ν} {entries : List (κ × ν)} {entry : κ × ν}
    (hentry : entry ∈ entries) (hne : entry.1 ≠ key) : entry ∈ put key value entries := by
  induction entries with
  | nil => cases hentry
  | cons first rest ih =>
    rw [put]
    split
    · rename_i heq
      refine List.mem_cons_of_mem _ ((List.mem_cons.mp hentry).resolve_left ?_)
      rintro rfl
      exact hne (eq_of_beq heq)
    · rcases List.mem_cons.mp hentry with rfl | hentry
      · exact List.mem_cons_self
      · exact List.mem_cons_of_mem _ (ih hentry)

lemma mem_putAll_of_not_mem {entries more : List (κ × ν)} {entry : κ × ν}
    (hentry : entry ∈ entries) (hnot : entry.1 ∉ more.map (·.1)) :
    entry ∈ putAll entries more := by
  induction more generalizing entries with
  | nil => exact hentry
  | cons first more ih =>
    rw [List.map_cons, List.mem_cons, not_or] at hnot
    exact ih (mem_put_of_ne hentry hnot.1) hnot.2

omit [LawfulBEq κ] in
lemma snd_of_mem_put {key : κ} {value : ν} {entries : List (κ × ν)} {entry : κ × ν}
    (h : entry ∈ put key value entries) : entry.2 = value ∨ entry ∈ entries := by
  induction entries with
  | nil =>
    rw [List.mem_singleton.mp h]
    exact .inl rfl
  | cons first rest ih =>
    rw [put] at h
    split at h
    · rcases List.mem_cons.mp h with rfl | h
      · exact .inl rfl
      · exact .inr (List.mem_cons_of_mem _ h)
    · rcases List.mem_cons.mp h with rfl | h
      · exact .inr List.mem_cons_self
      · exact (ih h).imp_right (List.mem_cons_of_mem _)

omit [LawfulBEq κ] in
lemma exists_mem_put (key : κ) (value : ν) (entries : List (κ × ν)) :
    ∃ entry ∈ put key value entries, entry.2 = value := by
  induction entries with
  | nil => exact ⟨_, List.mem_cons_self, rfl⟩
  | cons first rest ih =>
    rw [put]
    split
    · exact ⟨_, List.mem_cons_self, rfl⟩
    · obtain ⟨entry, hmem, heq⟩ := ih
      exact ⟨entry, List.mem_cons_of_mem _ hmem, heq⟩

omit [LawfulBEq κ] in
lemma snd_of_mem_putAll {entries more : List (κ × ν)} {entry : κ × ν}
    (h : entry ∈ putAll entries more) : entry ∈ entries ∨ ∃ e ∈ more, entry.2 = e.2 := by
  induction more generalizing entries with
  | nil => exact .inl h
  | cons first more ih =>
    rcases ih h with h | ⟨e, he, heq⟩
    · refine (snd_of_mem_put h).symm.imp_right fun heq => ?_
      exact ⟨first, List.mem_cons_self, heq⟩
    · exact .inr ⟨e, List.mem_cons_of_mem _ he, heq⟩

omit [LawfulBEq κ] in
lemma snd_of_mem_ofList {entries : List (κ × ν)} {entry : κ × ν} (h : entry ∈ ofList entries) :
    ∃ e ∈ entries, entry.2 = e.2 := by
  refine (snd_of_mem_putAll h).resolve_left ?_
  exact List.not_mem_nil

lemma has_iff {key : κ} {entries : List (κ × ν)} :
    has key entries = true ↔ key ∈ entries.map (·.1) := by
  rw [has, List.any_eq_true, List.mem_map]
  simp only [beq_iff_eq]

lemma lookup_eq_none {key : κ} {entries : List (κ × ν)} :
    entries.lookup key = none ↔ key ∉ entries.map (·.1) := by
  simp only [List.lookup_eq_none_iff, List.mem_map, not_exists, not_and]
  constructor
  · rintro h ⟨_, value⟩ hmem rfl
    simpa using h _ hmem
  · rintro h ⟨other, value⟩ hmem
    simpa using fun heq => h _ hmem heq.symm

lemma mem_of_lookup {key : κ} {value : ν} {entries : List (κ × ν)}
    (h : entries.lookup key = some value) : (key, value) ∈ entries := by
  obtain ⟨before, after, heq, _⟩ := List.lookup_eq_some_iff.mp h
  simp [heq]

lemma lookup_of_mem {key : κ} {value : ν} {entries : List (κ × ν)}
    (hnodup : (entries.map (·.1)).Nodup) (h : (key, value) ∈ entries) :
    entries.lookup key = some value := by
  obtain ⟨before, after, rfl⟩ := List.append_of_mem h
  have hbefore : before.lookup key = none := by
    rw [lookup_eq_none]
    rw [List.map_append, List.nodup_append] at hnodup
    exact fun hmem => hnodup.2.2 key hmem key (by simp) rfl
  rw [List.lookup_append, hbefore, Option.none_or, List.lookup_cons_self]

lemma filter_cons_self {key : κ} {value : ν} {entries : List (κ × ν)}
    (h : key ∉ entries.map (·.1)) : ((key, value) :: entries).filter (·.1 != key) = entries := by
  rw [List.filter_cons_of_neg (by simp)]
  refine List.filter_eq_self.mpr fun entry hentry => ?_
  have hne : entry.1 ≠ key := fun heq => h (heq ▸ List.mem_map_of_mem hentry)
  exact bne_iff_ne.mpr hne

lemma lookup_of_has {key : κ} {entries : List (κ × ν)} (h : has key entries = true) :
    (entries.lookup key).isSome := by
  rw [List.lookup_isSome_iff]
  obtain ⟨entry, hmem, heq⟩ := List.any_eq_true.mp h
  exact ⟨entry, hmem, by rw [eq_of_beq heq]; exact BEq.rfl⟩

/-- Adding entries for new keys keeps what is there and then takes the first entry of each key. -/
lemma putNew_spec {entries : List (κ × ν)} (h : (entries.map (·.1)).Nodup)
    (more : List (κ × ν)) :
    ((putNew entries more).map (·.1)).Nodup ∧
      (putNew entries more).Sublist (entries ++ more) ∧
      ∀ key, (putNew entries more).lookup key = (entries ++ more).lookup key := by
  induction more generalizing entries with
  | nil => exact ⟨h, by simp [putNew], by simp [putNew]⟩
  | cons entry more ih =>
    obtain ⟨k, v⟩ := entry
    have hstep : putNew entries ((k, v) :: more) =
        putNew (if has k entries then entries else entries ++ [(k, v)]) more := rfl
    cases hhas : has k entries with
    | true =>
      rw [hstep, hhas]
      obtain ⟨hkeys, hsub, hlookup⟩ := ih h
      refine ⟨hkeys, hsub.trans ?_, fun key => (hlookup key).trans ?_⟩
      · exact List.Sublist.append_left (List.sublist_cons_self _ _) _
      · rw [List.lookup_append, List.lookup_append, List.lookup_cons]
        cases heq : key == k with
        | false => rfl
        | true =>
          obtain ⟨v', hv'⟩ := Option.isSome_iff_exists.mp (lookup_of_has hhas)
          rw [eq_of_beq heq, hv']
          rfl
    | false =>
      rw [hstep, hhas]
      have hnot : k ∉ entries.map (·.1) := by
        rw [← has_iff, hhas]
        exact Bool.false_ne_true
      have hnodup : ((entries ++ [(k, v)]).map (·.1)).Nodup := by
        rw [List.map_append]
        exact h.append (List.nodup_singleton _) (by simpa using hnot)
      obtain ⟨hkeys, hsub, hlookup⟩ := ih hnodup
      simp only [List.append_assoc, List.cons_append, List.nil_append] at hsub hlookup
      exact ⟨hkeys, hsub, hlookup⟩

end SchemaTypes.Entries
