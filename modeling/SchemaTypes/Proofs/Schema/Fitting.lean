import SchemaTypes.Proofs.Decode.Levels
import SchemaTypes.Proofs.Json.Nesting
import SchemaTypes.Proofs.Schema.Rereading

/-! How deep a decoded schema nests once it is written: no deeper than what it was decoded from. -/

namespace SchemaTypes

open Decode

namespace Keywords

/-- The values of the entries nest at most so deep. -/
def Fit (n : ℕ) (entries : List (String × Json)) : Prop := ∀ entry ∈ entries, entry.2.Nests n

/-- What decoding makes of a schema that nests so deep inside. -/
structure Fits (n : ℕ) (k : Keywords Schema) : Prop extends k.Sound where
  types : ∀ types, k.types = some types → types.toJson.Nests n
  properties : Fit n (mapEntry "properties" (mapEntries Schema.toJson k.properties))
  required : Fit n (listEntry "required" (k.required.map .string))
  additional : ∀ a, k.additional = some a → (a.map Schema.toJson).toJson.Nests n
  patterns : Fit n (mapEntry "patternProperties" (mapEntries Schema.toJson k.patterns))
  dictionaryKey : ∀ s, k.dictionaryKey = some s → s.toJson.Nests n
  items : ∀ items, k.items = some items → (items.map Schema.toJson).toJson.Nests n
  allOf : Fit n (listEntry "allOf" (k.allOf.map Schema.toJson))
  oneOf : Fit n (listEntry "oneOf" ((k.oneOf.map (Option.map Schema.toJson)).map (·.getD .null)))
  anyOf : Fit n (listEntry "anyOf" (k.anyOf.map Schema.toJson))
  forms : ∀ form, k.discriminator = some form → form.toJson.Nests n
  values : Fit n (listEntry "enum" k.enumeration)
  definitions : Fit n (mapEntry "definitions" (mapEntries Schema.toJson k.definitions))
  defs : Fit n (mapEntry "$defs" (mapEntries Schema.toJson k.defs))
  components : ∀ entries, k.components = some entries →
    (Json.object (mapEntry "schemas" (mapEntries Schema.toJson entries))).Nests n
  others : Fit n k.extra

section

variable {α : Type} {n : ℕ} {name : String}

lemma fit_optional {write : α → Json} {a : Option α} (h : ∀ b, a = some b → (write b).Nests n) :
    Fit n (optionalEntry name write a) := by
  intro entry hentry
  obtain ⟨b, hb, rfl⟩ := mem_optionalEntry hentry
  exact h b hb

lemma fit_optional_map {β : Type} {f : β → α} {write : α → Json} {b : Option β}
    (h : ∀ c, b = some c → (write (f c)).Nests n) :
    Fit n (optionalEntry name write (b.map f)) := by
  refine fit_optional fun a ha => ?_
  obtain ⟨c, hc, rfl⟩ := Option.map_eq_some_iff.mp ha
  exact h c hc

lemma fit_list {items : List Json} (h : (Json.array items).Nests n) :
    Fit n (listEntry name items) := by
  intro entry hentry
  rw [mem_listEntry hentry]
  exact h

lemma fit_map {entries : List (String × Json)} (h : (Json.object entries).Nests n) :
    Fit n (mapEntry name entries) := by
  intro entry hentry
  rw [mem_mapEntry hentry]
  exact h

lemma fit_append {entries more : List (String × Json)} (h : Fit n entries) (hmore : Fit n more) :
    Fit n (entries ++ more) := List.forall_mem_append.mpr ⟨h, hmore⟩

lemma fits_empty : Fits n {} := by
  constructor
  case toSound => exact ⟨nofun, nofun, nofun, List.nodup_nil⟩
  all_goals exact nofun

variable {k : Keywords Schema}

lemma Fits.nests (h : k.Fits n) : (k.map Schema.toJson).toJson.Nests (n + 1) := by
  rw [toJson_eq]
  refine .object trivial (fit_append ?_ h.others)
  delta ownEntries
  refine fit_append ?_ (fit_optional_map h.components)
  refine fit_append ?_ h.defs
  refine fit_append ?_ h.definitions
  refine fit_append ?_ h.values
  refine fit_append ?_ (fit_optional h.forms)
  refine fit_append ?_ h.anyOf
  refine fit_append ?_ h.oneOf
  refine fit_append ?_ h.allOf
  refine fit_append ?_ (fit_optional_map h.items)
  refine fit_append ?_ (fit_optional_map h.dictionaryKey)
  refine fit_append ?_ h.patterns
  refine fit_append ?_ (fit_optional_map h.additional)
  refine fit_append ?_ h.required
  refine fit_append ?_ h.properties
  refine fit_append ?_ (fit_optional fun _ _ => .scalar rfl)
  refine fit_append ?_ (fit_optional fun _ _ => .scalar rfl)
  refine fit_append ?_ (fit_optional fun _ _ => .scalar rfl)
  refine fit_append ?_ (fit_optional fun _ _ => .scalar rfl)
  refine fit_append ?_ (fit_optional fun _ _ => .scalar rfl)
  exact fit_optional h.types

end

section

variable {m : Type → Type} [Source m] [GivesAt m] [Levels m] {n : ℕ}

lemma givesAt_oneOf {α : Type} {name : String} {decode : Raw → Option α} {a : α}
    (h : givesAt n (Decode.oneOf name decode : m α) a) : ∃ r, r.depth ≤ n ∧ decode r = some a := by
  obtain ⟨r, hr, h⟩ := GivesAt.bind h
  split at h
  case h_1 a' heq =>
    rw [GivesAt.pure h]
    exact ⟨r, Levels.raw hr, heq⟩
  case h_2 => exact (Levels.refuse h).elim

lemma fields_reached {σ : Type} {name : String} {names : List String} {step : String → σ → m σ}
    {start state : σ} (h : givesAt n (fields name names step start) state) :
    ∃ below, n = below + 1 ∧ ∀ I : σ → Prop, I start →
      (∀ key s t, I s → givesAt below (step key s) t → I t) → I state := by
  obtain ⟨found, hfound, h⟩ := GivesAt.bind h
  rw [GivesAt.pure h]
  obtain ⟨below, hbelow, hkept⟩ := Levels.record hfound
  refine ⟨below, hbelow, fun I hstart hstep => ?_⟩
  refine hkept (fun state => I state.2) hstart fun key s t hs ht => ?_
  obtain ⟨next, hnext, ht⟩ := GivesAt.bind ht
  rw [GivesAt.pure ht]
  exact hstep key s.2 next hs hnext

lemma nests_texts {texts : List String} {x : m String} (h : givesAt n (Source.list x) texts) :
    (Json.array (texts.map .string)).Nests n := by
  obtain ⟨below, rfl, _⟩ := Levels.list h
  refine .array fun item hitem => ?_
  obtain ⟨text, _, rfl⟩ := List.mem_map.mp hitem
  exact .scalar rfl

lemma canonical_of_givesAt {j : Json} (h : givesAt n (Source.json : m Json) j) :
    j.Canonical n := by
  obtain ⟨r, hr, rfl⟩ := Levels.json h
  cases hj : r.json? with
  | none => exact .scalar rfl
  | some j => exact Raw.canonical_of_json hr hj

end

end Keywords

open Keywords

lemma TypeSet.nests_of_ofRaw {r : Raw} {types : TypeSet} {n : ℕ} (hr : r.depth ≤ n)
    (h : ofRaw? r = some types) : types.toJson.Nests n := by
  rw [ofRaw?, Option.orElse_eq_orElse, Option.orElse_eq_or] at h
  rcases Option.or_eq_some_iff.mp h with h | ⟨_, h⟩
  · obtain ⟨type, _, rfl⟩ := Option.map_eq_some_iff.mp h
    exact .scalar rfl
  · obtain ⟨found, hfound, rfl⟩ := Option.map_eq_some_iff.mp h
    have hgives : givesAt n (Source.list JsonType.decode : RawReader (List JsonType)) found :=
      ⟨r, hr, hfound⟩
    obtain ⟨below, rfl, _⟩ := Levels.list hgives
    refine .array fun item hitem => ?_
    obtain ⟨type, _, rfl⟩ := List.mem_map.mp hitem
    exact .scalar rfl

lemma Discriminator.spec_of_decode {d : Discriminator String} {n : ℕ}
    (h : givesAt n (decode : RawReader (Discriminator String)) d) :
    d.toJson.Nests n ∧ (d.mapping.map (·.1)).Nodup := by
  obtain ⟨⟨property, mapping⟩, hfound, h⟩ := GivesAt.bind h
  obtain ⟨below, rfl, hkept⟩ := fields_reached hfound
  have hmapping := hkept
    (fun state => Fit below (mapEntry "mapping" (mapEntries .string state.2)) ∧
      (state.2.map (·.1)).Nodup) ⟨nofun, List.nodup_nil⟩ fun key s t hs ht => by
    split at ht
    · obtain ⟨_, _, ht⟩ := GivesAt.bind ht
      rw [GivesAt.pure ht]
      exact hs
    · obtain ⟨found, hfound, ht⟩ := GivesAt.bind ht
      rw [GivesAt.pure ht]
      obtain ⟨inner, rfl, _⟩ := Levels.entries hfound
      refine ⟨fit_map (.object trivial fun entry hentry => ?_), Entries.ofList_keys_nodup found⟩
      obtain ⟨e, _, rfl⟩ := List.mem_map.mp hentry
      exact .scalar rfl
  cases property with
  | none => exact (Levels.refuse h).elim
  | some property =>
    rw [GivesAt.pure h, toJson_eq]
    exact ⟨.object trivial (List.forall_mem_cons.mpr ⟨.scalar rfl, hmapping.1⟩), hmapping.2⟩

lemma DiscriminatorForm.spec_of_ofRaw {r : Raw} {form : DiscriminatorForm} {n : ℕ}
    (hr : r.depth ≤ n) (h : ofRaw? r = some form) : form.toJson.Nests n ∧ form.DistinctKeys := by
  unfold ofRaw? at h
  split at h
  · cases h
    exact ⟨.scalar rfl, trivial⟩
  · obtain ⟨d, hd, rfl⟩ := Option.map_eq_some_iff.mp h
    exact Discriminator.spec_of_decode ⟨_, hr, hd⟩

section

variable {schema : Raw → Option Schema} {n : ℕ}
  (hschema : ∀ r s n, r.depth ≤ n → schema r = some s → s.toJson.Nests n)

include hschema

lemma Additional.nests_of_ofRaw {r : Raw} {additional : Additional Schema} (hr : r.depth ≤ n)
    (h : ofRaw? schema r = some additional) :
    (additional.map Schema.toJson).toJson.Nests n := by
  unfold ofRaw? at h
  split at h
  · cases h
    exact .scalar rfl
  · obtain ⟨s, hs, rfl⟩ := Option.map_eq_some_iff.mp h
    exact hschema _ s n hr hs

lemma Items.nests_of_ofRaw {r : Raw} {items : Items Schema} (hr : r.depth ≤ n)
    (h : ofRaw? schema r = some items) : (items.map Schema.toJson).toJson.Nests n := by
  unfold ofRaw? at h
  rw [Option.orElse_eq_orElse, Option.orElse_eq_or] at h
  rcases Option.or_eq_some_iff.mp h with h | ⟨_, h⟩
  · obtain ⟨s, hs, rfl⟩ := Option.map_eq_some_iff.mp h
    exact hschema r s n hr hs
  · split at h
    · obtain ⟨ss, hss, rfl⟩ := Option.map_eq_some_iff.mp h
      obtain ⟨below, rfl, hitems⟩ := Raw.list_depth hr
      refine .array fun item hitem => ?_
      obtain ⟨s, hs, rfl⟩ := List.mem_map.mp hitem
      obtain ⟨r, hmem, hr⟩ := gives_mapM (m := Option) hss s hs
      exact hschema r s below (hitems r hmem) hr
    · cases h

end

namespace Keywords

section

variable {m : Type → Type} [Source m] [GivesAt m] [Levels m] {n : ℕ}
  {schema : Raw → Option Schema} {k k' : Keywords Schema}
  (hschema : ∀ r s n, r.depth ≤ n → schema r = some s → s.toJson.Nests n)

include hschema

lemma nests_child {s : Schema} (h : givesAt n (Decode.oneOf "SchemaOrRef" schema : m Schema) s) :
    s.toJson.Nests n := by
  obtain ⟨r, hr, hs⟩ := givesAt_oneOf h
  exact hschema r s n hr hs

lemma nests_schemas {entries : List (String × Schema)}
    (h : givesAt n (decodeSchemas schema : m (List (String × Schema))) entries) :
    (Json.object (mapEntries Schema.toJson entries)).Nests n := by
  obtain ⟨found, hfound, h⟩ := GivesAt.bind h
  obtain ⟨below, rfl, hentries⟩ := Levels.entries hfound
  rw [GivesAt.pure h]
  refine .object trivial fun entry hentry => ?_
  obtain ⟨e, he, rfl⟩ := List.mem_map.mp hentry
  obtain ⟨e', he', heq⟩ := Entries.snd_of_mem_ofList he
  rw [heq]
  exact nests_child hschema (hentries e' he')

lemma nests_components {entries : List (String × Schema)}
    (h : givesAt n (decodeComponents schema : m (List (String × Schema))) entries) :
    (Json.object (mapEntry "schemas" (mapEntries Schema.toJson entries))).Nests n := by
  obtain ⟨below, rfl, hkept⟩ := fields_reached h
  refine .object trivial (hkept
    (fun entries => Fit below (mapEntry "schemas" (mapEntries Schema.toJson entries))) nofun ?_)
  exact fun _ _ _ _ ht => fit_map (nests_schemas hschema ht)

lemma nests_children {ss : List Schema}
    (h : givesAt n (Source.list (Decode.oneOf "SchemaOrRef" schema) : m (List Schema)) ss) :
    (Json.array (ss.map Schema.toJson)).Nests n := by
  obtain ⟨below, rfl, hss⟩ := Levels.list h
  refine .array fun item hitem => ?_
  obtain ⟨s, hs, rfl⟩ := List.mem_map.mp hitem
  exact nests_child hschema (hss s hs)

lemma nests_alternatives {alternatives : List (Option Schema)}
    (h : givesAt n (Source.list (Source.optional (Decode.oneOf "SchemaOrRef" schema)) :
      m (List (Option Schema))) alternatives) :
    (Json.array ((alternatives.map (Option.map Schema.toJson)).map (·.getD .null))).Nests n := by
  obtain ⟨below, rfl, hitems⟩ := Levels.list h
  refine .array fun item hitem => ?_
  rw [List.map_map] at hitem
  obtain ⟨a, ha, rfl⟩ := List.mem_map.mp hitem
  cases a with
  | none => exact .scalar rfl
  | some s => exact nests_child hschema (Levels.optional (hitems _ ha))

omit hschema in
lemma fits_put {name : String} {value : Json} (hk : k.Fits n) (hname : name ∉ names)
    (hvalue : value.Canonical n) : Fits n { k with extra := Entries.put name value k.extra } := by
  have hkey (entry : String × Json) (hentry : entry ∈ Entries.put name value k.extra) :
      entry.1 ∉ names := by
    rcases Entries.mem_keys_put.mp (List.mem_map_of_mem hentry) with heq | hmem
    · rwa [heq]
    · obtain ⟨e, he, heq⟩ := List.mem_map.mp hmem
      rw [← heq]
      exact (hk.extra e he).1
  refine { hk with
    extra := fun entry hentry => ⟨hkey entry hentry, ?_⟩
    extraKeys := Entries.put_keys_nodup hk.extraKeys
    others := fun entry hentry => ?_ }
  · rcases Entries.snd_of_mem_put hentry with heq | hentry
    · rw [heq]
      exact ⟨n, hvalue⟩
    · exact (hk.extra entry hentry).2
  · rcases Entries.snd_of_mem_put hentry with heq | hentry
    · rw [heq]
      exact hvalue.nests
    · exact hk.others entry hentry

lemma fits_of_decodeKeyword {name : String} (hk : k.Fits n)
    (h : givesAt n (decodeKeyword schema name k : m (Keywords Schema)) k') : k'.Fits n := by
  have hread {α : Type} {x : m α} {f : α → Keywords Schema}
      (h : givesAt n (x >>= fun a => pure (f a)) k') (hf : ∀ a, givesAt n x a → (f a).Fits n) :
      k'.Fits n := by
    obtain ⟨a, ha, h⟩ := GivesAt.bind h
    rw [GivesAt.pure h]
    exact hf a ha
  have hmaps {entries : List (String × Schema)} (name : String)
      (h : givesAt n (decodeSchemas schema : m (List (String × Schema))) entries) :
      Fit n (mapEntry name (mapEntries Schema.toJson entries)) :=
    fit_map (nests_schemas hschema h)
  unfold decodeKeyword at h
  split at h
  · refine hread h fun a ha => { hk with types := fun types htypes => ?_ }
    cases htypes
    obtain ⟨r, hr, htypes⟩ := givesAt_oneOf (Levels.optional ha)
    exact TypeSet.nests_of_ofRaw hr htypes
  · exact hread h fun _ _ => { hk with }
  · exact hread h fun _ _ => { hk with }
  · exact hread h fun _ _ => { hk with }
  · exact hread h fun _ _ => { hk with }
  · exact hread h fun _ _ => { hk with }
  · exact hread h fun _ hes => { hk with properties := hmaps _ hes }
  · exact hread h fun _ ha => { hk with required := fit_list (nests_texts ha) }
  · refine hread h fun a ha => { hk with additional := fun additional heq => ?_ }
    cases heq
    obtain ⟨r, hr, hadditional⟩ := givesAt_oneOf (Levels.optional ha)
    exact Additional.nests_of_ofRaw hschema hr hadditional
  · exact hread h fun _ hes => { hk with patterns := hmaps _ hes }
  · refine hread h fun a ha => { hk with dictionaryKey := fun s heq => ?_ }
    cases heq
    exact nests_child hschema (Levels.optional ha)
  · refine hread h fun a ha => { hk with items := fun items heq => ?_ }
    cases heq
    obtain ⟨r, hr, hitems⟩ := givesAt_oneOf (Levels.optional ha)
    exact Items.nests_of_ofRaw hschema hr hitems
  · exact hread h fun _ ha => { hk with allOf := fit_list (nests_children hschema ha) }
  · exact hread h fun _ ha => { hk with oneOf := fit_list (nests_alternatives hschema ha) }
  · exact hread h fun _ ha => { hk with anyOf := fit_list (nests_children hschema ha) }
  · refine hread h fun a ha => ?_
    have hform (form : DiscriminatorForm) (heq : a = some form) :
        form.toJson.Nests n ∧ form.DistinctKeys := by
      cases heq
      obtain ⟨r, hr, hform⟩ := givesAt_oneOf (Levels.optional ha)
      exact DiscriminatorForm.spec_of_ofRaw hr hform
    exact { hk with
      forms := fun form heq => (hform form heq).1
      discriminator := fun form heq => (hform form heq).2 }
  · refine hread h fun a ha => ?_
    obtain ⟨below, rfl, hvalues⟩ := Levels.list ha
    exact { hk with
      values := fit_list (.array fun j hj => (canonical_of_givesAt (hvalues j hj)).nests)
      enumeration := fun j hj => ⟨below, canonical_of_givesAt (hvalues j hj)⟩ }
  · exact hread h fun _ hes => { hk with definitions := hmaps _ hes }
  · exact hread h fun _ hes => { hk with defs := hmaps _ hes }
  · refine hread h fun a ha => { hk with components := fun entries heq => ?_ }
    cases heq
    exact nests_components hschema (Levels.optional ha)
  · obtain ⟨r, hr, h⟩ := GivesAt.bind h
    split at h
    · rename_i value hvalue
      rw [GivesAt.pure h]
      have hname : name ∉ names := by simp_all [names]
      exact fits_put hk hname (Raw.canonical_of_json (Levels.raw hr) hvalue)
    · exact (Levels.refuse h).elim

lemma fits_of_decode (h : givesAt n (decode schema : m (Keywords Schema)) k) :
    ∃ below, n = below + 1 ∧ k.Fits below := by
  obtain ⟨state, hstate, h⟩ := GivesAt.bind h
  rw [GivesAt.pure h]
  obtain ⟨below, hbelow, hkept⟩ := Levels.keywords hstate
  refine ⟨below, hbelow, hkept (fun state => state.2.Fits below) fits_empty ?_⟩
  intro key s t hs ht
  obtain ⟨next, hnext, ht⟩ := GivesAt.bind ht
  rw [GivesAt.pure ht]
  exact fits_of_decodeKeyword hschema hs hnext

end

end Keywords

end SchemaTypes
