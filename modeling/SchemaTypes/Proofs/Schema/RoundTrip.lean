import SchemaTypes.Load
import SchemaTypes.Proofs.Json.Reading
import SchemaTypes.Proofs.Schema.Congruence
import SchemaTypes.Proofs.Schema.Fitting

/-! Writing a parsed schema and parsing it again. All comes back but the schemas below with a text
under `$ref` that were no references: those are references now. -/

namespace SchemaTypes

open Decode

def Json.int? : Json → Option Int
  | int n => some n
  | _ => none

lemma Json.eq_of_int? {j : Json} {n : Int} (h : j.int? = some n) : j = .int n := by
  cases j <;> cases h
  rfl

namespace Schema

def referenceStep (_ : String) (_ : Option String) : RawReader (Option String) := do
  return some (← Source.text)

lemma refTarget_map (entries : List (Raw × Raw)) :
    refTarget? (.map entries) =
      ((RawReader.fieldSteps ["$ref"] (RawReader.stepUnless repetition (marking referenceStep))
        entries ([], none)).bind fun state => some state.2).join := rfl

lemma refTarget_raw {entries : List (String × Json)} (h : (entries.map (·.1)).Nodup) :
    refTarget? (ValueReader.raw (.object entries)) =
      (entries.lookup "$ref").bind Json.text? := by
  rw [ValueReader.raw_object, refTarget_map]
  cases hlookup : entries.lookup "$ref" with
  | none =>
    have hunknown : ∀ entry ∈ entries, entry.1 ∉ ["$ref"] := by
      intro entry hentry hname
      rw [List.mem_singleton] at hname
      exact Entries.lookup_eq_none.mp hlookup (List.mem_map.mpr ⟨entry, hentry, hname⟩)
    rw [RawReader.fieldSteps_unknown hunknown]
    rfl
  | some j =>
    obtain ⟨before, after, rfl, hbefore⟩ := List.lookup_eq_some_iff.mp hlookup
    have hbefore : ∀ entry ∈ before, entry.1 ∉ ["$ref"] := by
      intro entry hentry hname
      rw [List.mem_singleton] at hname
      simpa [hname] using hbefore entry hentry
    have hafter : ∀ entry ∈ after, entry.1 ∉ ["$ref"] := by
      intro entry hentry hname
      rw [List.mem_singleton] at hname
      rw [List.map_append, List.nodup_append, List.map_cons, List.nodup_cons] at h
      exact h.2.1.1 (List.mem_map.mpr ⟨entry, hentry, hname⟩)
    have hstep : RawReader.stepUnless repetition (marking referenceStep) "$ref"
        (ValueReader.raw j) ([], none) = j.text?.map fun target => (["$ref"], some target) := by
      cases j <;> rfl
    have hfield : RawReader.field? ["$ref"] (.text "$ref") = some (some "$ref") := rfl
    rw [List.map_append, RawReader.fieldSteps_append, RawReader.fieldSteps_unknown hbefore,
      Option.bind_some, List.map_cons, RawReader.fieldSteps, hfield]
    simp only [hstep, Option.bind_eq_bind, Option.bind_some]
    cases j.text? with
    | none => rfl
    | some target =>
      simp only [Option.map_some, Option.bind_some, RawReader.fieldSteps_unknown hafter]
      rfl

lemma ofRawWithin_list (bound : ℕ) (rs : List Raw) : ofRawWithin? bound (.list rs) = none := by
  cases bound with
  | zero => rfl
  | succ bound => rfl

lemma nests_of_ofRawWithin {bound : ℕ} {r : Raw} {s : Schema} {n : ℕ} (hr : r.depth ≤ n)
    (h : ofRawWithin? bound r = some s) : s.toJson.Nests n := by
  induction bound generalizing r s n with
  | zero => cases h
  | succ bound ih =>
    rcases ofRawWithin_cases h with ⟨target, htarget, rfl⟩ | ⟨k, hk, rfl⟩
    · unfold refTarget? at htarget
      split at htarget
      · obtain ⟨below, rfl, _⟩ := Raw.map_depth hr
        exact .object trivial (List.forall_mem_singleton.mpr (.scalar rfl))
      · cases htarget
    · have hgives : givesAt n (Keywords.decode (ofRawWithin? bound) : RawReader _) k :=
        ⟨r, hr, hk⟩
      obtain ⟨below, rfl, hfits⟩ := Keywords.fits_of_decode (fun _ _ _ => ih) hgives
      rw [toJson_inline]
      exact hfits.nests

/-- However many levels may be entered, if they are enough the written schema is understood. -/
def Rereads (s : Schema) : Prop := ∀ n, s.Understood (ofRawWithin? n) n

lemma rereads_ref (target : String) : (ref target).Rereads := by
  intro n hn
  rw [toJson_ref] at hn
  obtain ⟨below, rfl, _⟩ := hn.entries
  rfl

lemma rereads_inline {k : Keywords Schema} (hk : k.Keyed Rereads) (hsound : k.Sound) :
    (inline k).Rereads := by
  intro n hn
  rw [toJson_inline] at hn ⊢
  obtain ⟨below, rfl, _⟩ := hn.entries
  -- No modelled keyword is `$ref`, so that a target can only stand among the other entries.
  have htarget : refTarget? (ValueReader.raw (k.map toJson).toJson) = k.looseTarget? := by
    have hown : (k.map toJson).ownEntries.lookup "$ref" = none := by
      rw [Entries.lookup_eq_none]
      exact fun hmem => absurd ((Keywords.keys_ownEntries _).subset hmem) (by decide)
    refine (refTarget_raw hsound.keys_nodup).trans ?_
    rw [List.lookup_append, hown, Option.none_or]
    rfl
  have hdecode : RawReader.decode (Keywords.decode (ofRawWithin? below))
      (ValueReader.raw (k.map toJson).toJson) = some (k.map settled) :=
    Keywords.reads_toJson (m := RawReader) (hk.imp fun s hs => hs below) hsound
      (ofRawWithin_list below) hn
  rw [ofRawWithin?, htarget, hdecode]
  cases hloose : k.looseTarget? with
  | none => rw [settled_of_not_loose hloose]; rfl
  | some target => rw [settled_of_loose hloose]; rfl

lemma rereads_of_ofRawWithin {bound : ℕ} {r : Raw} {s : Schema}
    (h : ofRawWithin? bound r = some s) : s.Rereads := by
  induction bound generalizing r s with
  | zero => cases h
  | succ bound ih =>
    rcases ofRawWithin_cases h with ⟨target, _, rfl⟩ | ⟨k, hk, rfl⟩
    · exact rereads_ref target
    · have hgives : gives (Keywords.decode (ofRawWithin? bound) : RawReader (Keywords Schema)) k :=
        ⟨r, hk⟩
      have hgivesAt : givesAt r.depth (Keywords.decode (ofRawWithin? bound) : RawReader _) k :=
        ⟨r, Nat.le_refl _, hk⟩
      obtain ⟨_, _, hfits⟩ := Keywords.fits_of_decode (fun _ _ _ => nests_of_ofRawWithin) hgivesAt
      exact rereads_inline (Keywords.keyed_of_decode (fun _ _ => ih) hgives) hfits.toSound

end Schema

namespace Keywords

variable {α β : Type} {k : Keywords α}

lemma map_self (k : Keywords α) : (k.map fun a => a) = k := by
  have hadditional : (Additional.map fun a : α => a) = id := by
    funext additional
    cases additional <;> rfl
  have hitems : (Items.map fun a : α => a) = id := by
    funext items
    cases items <;> simp [Items.map]
  have hentries : (mapEntries fun a : α => a) = id := by
    funext entries
    simp [mapEntries]
  simp [map, hadditional, hitems, hentries]

lemma map_congr {f g : α → β} (h : ∀ place a, (place, a) ∈ k.children → f a = g a) :
    k.map f = k.map g := by
  have heq : IsCongruence Id fun _ x y => x = y :=
    ⟨fun _ => rfl, fun hx hf => by rw [hx, funext hf]⟩
  have htraverse : (k.traverse fun _ a => (pure (f a) : Id β)) = k.traverse fun _ a => pure (g a) :=
    heq.traverse fun place a hmem => congrArg _ (h place a hmem)
  rw [traverse_pure, traverse_pure] at htraverse
  exact htraverse

lemma map_eq_self_iff {f : α → α} :
    k.map f = k ↔ ∀ place a, (place, a) ∈ k.children → f a = a := by
  constructor
  · intro h place a hmem
    have hchildren : k.children.map (fun child => (child.1, f child.2)) = k.children.map id := by
      rw [← children_map, h, List.map_id]
    exact (Prod.mk.inj (List.map_inj_left.mp hchildren _ hmem)).2
  · intro h
    rw [map_congr h, map_self]

end Keywords

namespace Schema

section

variable {k : Keywords Schema} {Q : Keywords Schema → Prop}

lemma forall_below_iff :
    (∀ path k', path ≠ [] → (inline k).At path (.inline k') → Q k') ↔
      ∀ place s, (place, s) ∈ k.children → ∀ path k', s.At path (.inline k') → Q k' := by
  constructor
  · exact fun h place s hmem path k' hat =>
      h (place :: path) k' (List.cons_ne_nil _ _) (.child hmem hat)
  · intro h path k' hne hat
    cases hat with
    | here => exact absurd rfl hne
    | @child _ place s _ path hmem hat => exact h place s hmem path k' hat

lemma forall_at_iff :
    (∀ path k', (inline k).At path (.inline k') → Q k') ↔
      Q k ∧ ∀ path k', path ≠ [] → (inline k).At path (.inline k') → Q k' := by
  constructor
  · exact fun h => ⟨h [] k (.here _), fun path k' _ hat => h path k' hat⟩
  · rintro ⟨hk, h⟩ path k' hat
    by_cases hpath : path = []
    · subst hpath
      cases hat
      exact hk
    · exact h path k' hpath hat

end

lemma settled_eq_iff (s : Schema) :
    s.settled = s ↔ ∀ path k, s.At path (.inline k) → k.looseTarget? = none := by
  induction s using induct with
  | ref target =>
    refine iff_of_true (settled_ref target) fun path k hat => ?_
    cases hat
  | inline k ih =>
    rw [forall_at_iff, forall_below_iff]
    cases hloose : k.looseTarget? with
    | some target =>
      rw [settled_of_loose hloose]
      exact iff_of_false nofun fun h => nomatch h.1
    | none =>
      rw [settled_of_not_loose hloose, inline.injEq, Keywords.map_eq_self_iff]
      simp only [true_and]
      exact forall₃_congr ih

lemma Rereads.understood {s : Schema} (h : s.Rereads) (n : ℕ) : s.Understood ofRaw? n :=
  fun hn => h _ ((ValueReader.nests_depth hn).mono (Nat.le_succ _))

end Schema

namespace Keywords

variable {text : String} {k : Keywords Schema}

lemma reads_document (h : parseJson text = .ok k)
    (hnumbers : ∀ x ∈ k.documentJson.numbers, Json.parse x.compact = .ok x) :
    parseJson k.documentJson.compact = .ok (k.map Schema.settled) := by
  obtain ⟨left, hread, _⟩ := JsonReader.run_eq_ok.mp (parseJson_eq_ok.mp h)
  have hgives : gives (Schema.decodeRoot : JsonReader (Keywords Schema)) k :=
    ⟨JsonReader.levels, text.toList, left, hread⟩
  have hgivesAt : givesAt JsonReader.levels (Schema.decodeRoot : JsonReader _) k :=
    ⟨text.toList, left, hread⟩
  have hkeyed := keyed_of_decode (fun _ _ => Schema.rereads_of_ofRawWithin) hgives
  obtain ⟨below, hlevels, hfits⟩ :=
    fits_of_decode (fun _ _ _ => Schema.nests_of_ofRawWithin) hgivesAt
  -- What was parsed nests no deeper than a text may, and so does what is written for it.
  have hdocument : k.documentJson = (k.map Schema.toJson).toJson := Schema.toJson_inline k
  have hreads : JsonReader.ReadsText (below + 1) (k.map Schema.toJson).toJson
      (Schema.decodeRoot : JsonReader _) (k.map Schema.settled) := by
    refine reads_toJson (m := JsonReader) (hkeyed.imp fun s hs => hs.understood below)
      hfits.toSound (fun rs => Schema.ofRawWithin_list _ rs) ⟨hfits.nests, ?_⟩
    rwa [← hdocument]
  rw [parseJson_eq_ok, JsonReader.run_eq_ok, hlevels, hdocument, Json.compact,
    String.toList_ofList]
  refine ⟨[], ?_, rfl⟩
  simpa using hreads.2 [] Json.ends_nil

/-- A parsed schema that is written and parsed again is settled. It is the schema that it was just
if no schema below is written with a text under `$ref` though it is no reference. -/
theorem reads_back_iff (h : parseJson text = .ok k)
    (hnumbers : ∀ x ∈ k.documentJson.numbers, Json.parse x.compact = .ok x) :
    parseJson k.documentJson.compact = .ok (k.map Schema.settled) ∧
      (parseJson k.documentJson.compact = .ok k ↔
        ∀ path k', path ≠ [] → (Schema.inline k).At path (.inline k') →
          k'.looseTarget? = none) := by
  refine ⟨reads_document h hnumbers, ?_⟩
  rw [reads_document h hnumbers, Except.ok.injEq, map_eq_self_iff, Schema.forall_below_iff]
  exact forall₃_congr fun _ s _ => s.settled_eq_iff

def alternativesText : String :=
  "\x7b\"properties\":\x7b\"n\":\x7b\"oneOf\":[null,\x7b\"$ref\":\"#/$defs/A\"\x7d]," ++
    "\"default\":7\x7d\x7d," ++
    "\"$defs\":\x7b\"A\":\x7b\"type\":[\"string\"],\"items\":[\x7b\x7d,\x7b\x7d]\x7d\x7d\x7d"

lemma alternatives_parsed :
    ∃ k, parseJson alternativesText = .ok k ∧
      ∀ x ∈ k.documentJson.numbers, x.int? = some 7 := by
  decide +kernel

theorem alternatives_read_back :
    ∃ k, parseJson alternativesText = .ok k ∧
      (∀ x ∈ k.documentJson.numbers, Json.parse x.compact = .ok x) ∧
      parseJson k.documentJson.compact = .ok (k.map Schema.settled) ∧
      (parseJson k.documentJson.compact = .ok k ↔
        ∀ path k', path ≠ [] → (Schema.inline k).At path (.inline k') →
          k'.looseTarget? = none) := by
  obtain ⟨k, hk, hints⟩ := alternatives_parsed
  have hnumbers : ∀ x ∈ k.documentJson.numbers, Json.parse x.compact = .ok x := by
    intro x hx
    rw [Json.eq_of_int? (hints x hx)]
    rfl
  exact ⟨k, hk, hnumbers, reads_back_iff hk hnumbers⟩

def repeatedReferenceText : String :=
  "\x7b\"properties\":\x7b\"p\":\x7b\"type\":\"string\",\"$ref\":\"a\",\"$ref\":\"b\"\x7d\x7d\x7d"

lemma repeatedReference_written :
    ∃ k, parseJson repeatedReferenceText = .ok k ∧ k.documentJson.numbers.length = 0 ∧
      ∃ k', parseJson k.documentJson.compact = .ok k' ∧
        k'.documentJson.compact ≠ k.documentJson.compact := by
  decide +kernel

theorem repeatedReference_not_read_back :
    ∃ k, parseJson repeatedReferenceText = .ok k ∧ k.documentJson.numbers = [] ∧
      ∃ k', parseJson k.documentJson.compact = .ok k' ∧ k' ≠ k ∧
        k'.documentJson.compact ≠ k.documentJson.compact := by
  obtain ⟨k, hk, hnumbers, k', hk', hne⟩ := repeatedReference_written
  refine ⟨k, hk, List.eq_nil_of_length_eq_zero hnumbers, k', hk', ?_, hne⟩
  rintro rfl
  exact hne rfl

end Keywords

end SchemaTypes
