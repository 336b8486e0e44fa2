import SchemaTypes.Load
import SchemaTypes.Proofs.Decode.Results
import SchemaTypes.Proofs.Entries
import SchemaTypes.Proofs.Schema.Positions

/-! Decoded schemas give no name twice, because each of their maps was written entry by entry. -/

namespace SchemaTypes

open Decode

namespace Keywords

variable {P : Schema → Prop} {k : Keywords Schema}

def Named (P : Schema → Prop) (entries : List (String × Schema)) : Prop :=
  (entries.map (·.1)).Nodup ∧ ∀ entry ∈ entries, P entry.2

/-- No keyword with named schemas gives a name twice, and all schemas right below have the
property. -/
structure Keyed (P : Schema → Prop) (k : Keywords Schema) : Prop where
  properties : Named P k.properties
  additional : ∀ s, k.additional = some (.schema s) → P s
  patterns : Named P k.patterns
  dictionaryKey : ∀ s, k.dictionaryKey = some s → P s
  each : ∀ s, k.items = some (.each s) → P s
  tuple : ∀ ss, k.items = some (.tuple ss) → ∀ s ∈ ss, P s
  allOf : ∀ s ∈ k.allOf, P s
  oneOf : ∀ s, some s ∈ k.oneOf → P s
  anyOf : ∀ s ∈ k.anyOf, P s
  definitions : Named P k.definitions
  defs : Named P k.defs
  components : Named P (k.components.getD [])

lemma Keyed.imp {Q : Schema → Prop} (h : k.Keyed P) (himp : ∀ s, P s → Q s) : k.Keyed Q := by
  have hnamed {entries : List (String × Schema)} (h : Named P entries) : Named Q entries :=
    ⟨h.1, fun entry hentry => himp _ (h.2 entry hentry)⟩
  exact {
    properties := hnamed h.properties
    additional := fun s hs => himp s (h.additional s hs)
    patterns := hnamed h.patterns
    dictionaryKey := fun s hs => himp s (h.dictionaryKey s hs)
    each := fun s hs => himp s (h.each s hs)
    tuple := fun ss hss s hs => himp s (h.tuple ss hss s hs)
    allOf := fun s hs => himp s (h.allOf s hs)
    oneOf := fun s hs => himp s (h.oneOf s hs)
    anyOf := fun s hs => himp s (h.anyOf s hs)
    definitions := hnamed h.definitions
    defs := hnamed h.defs
    components := hnamed h.components }

lemma Keyed.distinctKeys (h : k.Keyed P) : k.DistinctKeys where
  properties := h.properties.1
  patterns := h.patterns.1
  definitions := h.definitions.1
  defs := h.defs.1
  components := h.components.1

lemma Keyed.child (h : k.Keyed P) {place : Place} {s : Schema} (hchild : k.Child place s) :
    P s := by
  cases hchild with
  | @definition group entries name _ hgroup hmem =>
    have hnamed : Named P entries := by
      simp only [sections, List.mem_cons, Prod.mk.injEq, List.not_mem_nil, or_false] at hgroup
      rcases hgroup with ⟨_, rfl⟩ | ⟨_, rfl⟩ | ⟨_, rfl⟩
      · exact h.definitions
      · exact h.defs
      · exact h.components
    exact hnamed.2 _ hmem
  | property hmem => exact h.properties.2 _ hmem
  | pattern hmem => exact h.patterns.2 _ hmem
  | additional hs => exact h.additional s hs
  | dictionaryKey hs => exact h.dictionaryKey s hs
  | each hs => exact h.each s hs
  | tuple hitems hs => exact h.tuple _ hitems s (List.mem_of_getElem? hs)
  | allOf hs => exact h.allOf s (List.mem_of_getElem? hs)
  | anyOf hs => exact h.anyOf s (List.mem_of_getElem? hs)
  | oneOf hs => exact h.oneOf s (List.mem_of_getElem? hs)

lemma named_nil : Named P [] := ⟨List.nodup_nil, by simp⟩

lemma keyed_empty : ({} : Keywords Schema).Keyed P := by
  constructor
  case properties | patterns | definitions | defs | components => exact named_nil
  case additional | dictionaryKey | each | tuple => exact fun _ h => nomatch h
  case allOf | oneOf | anyOf => exact fun _ h => nomatch h

section

variable {m : Type → Type} [Source m] [Gives m] [Results m]

lemma gives_oneOf {α : Type} {name : String} {decode : Raw → Option α} {a : α}
    (h : gives (Decode.oneOf name decode : m α) a) : ∃ r, decode r = some a := by
  obtain ⟨r, _, h⟩ := Gives.bind h
  split at h
  case h_1 a' heq =>
    rw [Gives.pure h]
    exact ⟨r, heq⟩
  case h_2 => exact (Results.refuse h).elim

lemma fields_keeps {σ : Type} {name : String} {names : List String} {step : String → σ → m σ}
    {start state : σ} (I : σ → Prop) (hstart : I start)
    (hstep : ∀ key s t, I s → gives (step key s) t → I t)
    (h : gives (fields name names step start) state) : I state := by
  obtain ⟨found, hfound, h⟩ := Gives.bind h
  rw [Gives.pure h]
  refine Results.record (I := fun state : List String × σ => I state.2) hstart ?_ hfound
  intro key s t hs ht
  obtain ⟨next, hnext, ht⟩ := Gives.bind ht
  rw [Gives.pure ht]
  exact hstep key s.2 next hs hnext

variable {schema : Raw → Option Schema} (hschema : ∀ r s, schema r = some s → P s)

include hschema

lemma gives_child {s : Schema} (h : gives (Decode.oneOf "SchemaOrRef" schema : m Schema) s) :
    P s := by
  obtain ⟨r, hr⟩ := gives_oneOf h
  exact hschema r s hr

lemma named_of_decodeSchemas {entries : List (String × Schema)}
    (h : gives (decodeSchemas schema : m (List (String × Schema))) entries) :
    Named P entries := by
  obtain ⟨found, hfound, h⟩ := Gives.bind h
  rw [Gives.pure h]
  refine ⟨Entries.ofList_keys_nodup found, fun entry hmem => ?_⟩
  obtain ⟨e, he, heq⟩ := Entries.snd_of_mem_ofList hmem
  rw [heq]
  exact gives_child hschema (Results.entries hfound e he)

lemma named_of_decodeComponents {entries : List (String × Schema)}
    (h : gives (decodeComponents schema : m (List (String × Schema))) entries) :
    Named P entries :=
  fields_keeps (Named P) named_nil (fun _ _ _ _ ht => named_of_decodeSchemas hschema ht) h

lemma additional_of_ofRaw {r : Raw} {s : Schema}
    (h : Additional.ofRaw? schema r = some (.schema s)) : P s := by
  unfold Additional.ofRaw? at h
  split at h
  · cases h
  · obtain ⟨s', hs', heq⟩ := Option.map_eq_some_iff.mp h
    cases heq
    exact hschema _ s hs'

lemma items_of_ofRaw {r : Raw} {items : Items Schema} (h : Items.ofRaw? schema r = some items) :
    (∀ s, items = .each s → P s) ∧ ∀ ss, items = .tuple ss → ∀ s ∈ ss, P s := by
  unfold Items.ofRaw? at h
  rw [Option.orElse_eq_orElse, Option.orElse_eq_or] at h
  rcases Option.or_eq_some_iff.mp h with h | ⟨_, h⟩
  · obtain ⟨s, hs, rfl⟩ := Option.map_eq_some_iff.mp h
    refine ⟨fun s' heq => ?_, fun ss heq => nomatch heq⟩
    cases heq
    exact hschema r s hs
  · split at h
    · obtain ⟨ss, hss, rfl⟩ := Option.map_eq_some_iff.mp h
      refine ⟨fun s' heq => (nomatch heq), fun ss' heq s hs => ?_⟩
      cases heq
      obtain ⟨r', _, hr'⟩ := gives_mapM (m := Option) hss s hs
      exact hschema r' s hr'
    · cases h

lemma keyed_of_decodeKeyword {name : String} {k' : Keywords Schema} (hk : k.Keyed P)
    (h : gives (decodeKeyword schema name k : m (Keywords Schema)) k') : k'.Keyed P := by
  have hread {α : Type} {x : m α} {f : α → Keywords Schema}
      (h : gives (x >>= fun a => pure (f a)) k') (hf : ∀ a, gives x a → (f a).Keyed P) :
      k'.Keyed P := by
    obtain ⟨a, ha, h⟩ := Gives.bind h
    rw [Gives.pure h]
    exact hf a ha
  have hchild (s : Schema) := gives_child (m := m) (s := s) hschema
  unfold decodeKeyword at h
  split at h
  · exact hread h fun _ _ => { hk with }
  · exact hread h fun _ _ => { hk with }
  · exact hread h fun _ _ => { hk with }
  · exact hread h fun _ _ => { hk with }
  · exact hread h fun _ _ => { hk with }
  · exact hread h fun _ _ => { hk with }
  · exact hread h fun _ hes => { hk with properties := named_of_decodeSchemas hschema hes }
  · exact hread h fun _ _ => { hk with }
  · refine hread h fun a ha => { hk with additional := fun s hs => ?_ }
    cases hs
    obtain ⟨r, hr⟩ := gives_oneOf (Results.optional ha)
    exact additional_of_ofRaw hschema hr
  · exact hread h fun _ hes => { hk with patterns := named_of_decodeSchemas hschema hes }
  · refine hread h fun a ha => { hk with dictionaryKey := fun s hs => ?_ }
    cases hs
    exact hchild s (Results.optional ha)
  · refine hread h fun a ha => { hk with each := fun s hs => ?_, tuple := fun ss hss => ?_ }
    · cases hs
      obtain ⟨r, hr⟩ := gives_oneOf (Results.optional ha)
      exact (items_of_ofRaw hschema hr).1 s rfl
    · cases hss
      obtain ⟨r, hr⟩ := gives_oneOf (Results.optional ha)
      exact (items_of_ofRaw hschema hr).2 ss rfl
  · exact hread h fun ss hss => { hk with allOf := fun s hs => hchild s (Results.list hss s hs) }
  · refine hread h fun entries hentries => { hk with oneOf := fun s hs => ?_ }
    exact hchild s (Results.optional (Results.list hentries (some s) hs))
  · exact hread h fun ss hss => { hk with anyOf := fun s hs => hchild s (Results.list hss s hs) }
  · exact hread h fun _ _ => { hk with }
  · exact hread h fun _ _ => { hk with }
  · exact hread h fun _ hes => { hk with definitions := named_of_decodeSchemas hschema hes }
  · exact hread h fun _ hes => { hk with defs := named_of_decodeSchemas hschema hes }
  · refine hread h fun entries hentries => { hk with components := ?_ }
    cases entries with
    | none => exact named_nil
    | some entries => exact named_of_decodeComponents hschema (Results.optional hentries)
  · obtain ⟨r, _, h⟩ := Gives.bind h
    split at h
    · rw [Gives.pure h]
      exact { hk with }
    · exact (Results.refuse h).elim

lemma keyed_of_decode (h : gives (decode schema : m (Keywords Schema)) k) : k.Keyed P := by
  obtain ⟨state, hstate, h⟩ := Gives.bind h
  rw [Gives.pure h]
  refine Results.keywords (fun state : List String × Keywords Schema => state.2.Keyed P)
    keyed_empty ?_ hstate
  intro key s t hs ht
  obtain ⟨next, hnext, ht⟩ := Gives.bind ht
  rw [Gives.pure ht]
  exact keyed_of_decodeKeyword hschema hs hnext

end

end Keywords

namespace Schema

lemma distinctKeys_inline {k : Keywords Schema} (hk : k.DistinctKeys)
    (h : ∀ child ∈ k.children, child.2.DistinctKeys) : (inline k).DistinctKeys := by
  intro path k' hat
  cases hat with
  | here => exact hk
  | @child _ place s _ path hmem hat => exact h (place, s) hmem path k' hat

lemma distinctKeys_ref (target : String) : (ref target).DistinctKeys := by
  intro path k hat
  cases hat

lemma distinctKeys_of_keyed {k : Keywords Schema} (h : k.Keyed DistinctKeys) :
    (inline k).DistinctKeys :=
  distinctKeys_inline h.distinctKeys fun _ hmem => h.child (Keywords.child_of_mem_children hmem)

lemma ofRawWithin_cases {bound : ℕ} {r : Raw} {s : Schema}
    (h : ofRawWithin? (bound + 1) r = some s) :
    (∃ target, refTarget? r = some target ∧ s = ref target) ∨
      ∃ k, RawReader.decode (Keywords.decode (ofRawWithin? bound)) r = some k ∧ s = inline k := by
  rw [ofRawWithin?, Option.orElse_eq_orElse, Option.orElse_eq_or] at h
  rcases Option.or_eq_some_iff.mp h with h | ⟨_, h⟩
  · obtain ⟨target, htarget, rfl⟩ := Option.map_eq_some_iff.mp h
    exact .inl ⟨target, htarget, rfl⟩
  · obtain ⟨k, hk, rfl⟩ := Option.map_eq_some_iff.mp h
    exact .inr ⟨k, hk, rfl⟩

lemma distinctKeys_of_ofRawWithin {bound : ℕ} {r : Raw} {s : Schema}
    (h : ofRawWithin? bound r = some s) : s.DistinctKeys := by
  induction bound generalizing r s with
  | zero => cases h
  | succ bound ih =>
    rcases ofRawWithin_cases h with ⟨target, _, rfl⟩ | ⟨k, hk, rfl⟩
    · exact distinctKeys_ref target
    · have hgives : gives (Keywords.decode (ofRawWithin? bound) : RawReader (Keywords Schema)) k :=
        ⟨r, hk⟩
      exact distinctKeys_of_keyed (Keywords.keyed_of_decode (fun _ _ => ih) hgives)

lemma distinctKeys_of_decodeRoot {m : Type → Type} [Source m] [Gives m] [Results m]
    {root : Keywords Schema} (h : gives (decodeRoot : m (Keywords Schema)) root) :
    (inline root).DistinctKeys :=
  distinctKeys_of_keyed (Keywords.keyed_of_decode (fun _ _ => distinctKeys_of_ofRawWithin) h)

end Schema

variable {text : String} {root : Keywords Schema}

lemma parseJson_eq_ok :
    parseJson text = .ok root ↔
      JsonReader.run (Schema.decodeRoot (m := JsonReader)) text = .ok root := by
  rw [parseJson]
  cases JsonReader.run (Schema.decodeRoot (m := JsonReader)) text with
  | error problem => exact iff_of_false nofun nofun
  | ok k => exact ⟨fun h => by cases h; rfl, fun h => by cases h; rfl⟩

lemma distinctKeys_of_parseJson (h : parseJson text = .ok root) :
    (Schema.inline root).DistinctKeys := by
  obtain ⟨rest, hread, _⟩ := JsonReader.run_eq_ok.mp (parseJson_eq_ok.mp h)
  have hgives : gives (Schema.decodeRoot : JsonReader (Keywords Schema)) root :=
    ⟨JsonReader.levels, text.toList, rest, hread⟩
  exact Schema.distinctKeys_of_decodeRoot hgives

lemma distinctKeys_of_parseYaml (h : parseYaml text = .ok root) :
    (Schema.inline root).DistinctKeys := by
  rw [parseYaml] at h
  cases hrun : Yaml.Reader.run (Schema.decodeRoot (m := Yaml.Reader)) text with
  | none =>
    rw [hrun] at h
    cases h
  | some k =>
    rw [hrun] at h
    cases h
    obtain ⟨tree, _, hrun⟩ := Gives.bind (m := Option) hrun
    obtain ⟨⟨k, rest⟩, hread, hend⟩ := Gives.bind (m := Option) hrun
    have hgives : gives (Schema.decodeRoot : Yaml.Reader (Keywords Schema)) k :=
      ⟨_, 0, rest, hread⟩
    cases hend
    exact Schema.distinctKeys_of_decodeRoot hgives

end SchemaTypes
