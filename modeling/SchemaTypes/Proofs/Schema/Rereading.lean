import SchemaTypes.Proofs.Decode.Reading
import SchemaTypes.Proofs.Schema.Decode
import SchemaTypes.Proofs.Schema.Writing

/-! A written schema is read back, one keyword after another. -/

namespace SchemaTypes

open Decode

lemma TypeSet.ofRaw_toJson (types : TypeSet) :
    ofRaw? (ValueReader.raw types.toJson) = some types := by
  have hdecode (type : JsonType) :
      RawReader.decode JsonType.decode (.text type.name) = some type := by
    cases type <;> rfl
  cases types with
  | single type =>
    rw [ofRaw?, TypeSet.toJson, ValueReader.raw, hdecode]
    rfl
  | multiple types =>
    have hitems : RawReader.decode (Source.list JsonType.decode)
        (ValueReader.raw (.array (types.map fun type => .string type.name))) = some types := by
      refine Reading.list (m := RawReader) (n := 0) ?_
      rw [List.forall₂_map_left_iff, List.forall₂_same]
      exact fun type _ => hdecode type
    rw [ofRaw?, TypeSet.toJson, hitems, ValueReader.raw_array]
    rfl

lemma TypeSet.toJson_not_null (types : TypeSet) : types.toJson.isNull = false := by
  cases types <;> rfl

lemma Discriminator.toJson_eq (d : Discriminator String) :
    d.toJson = .object (("propertyName", .string d.property) ::
      Keywords.mapEntry "mapping" (Keywords.mapEntries .string d.mapping)) := by
  rcases d with ⟨property, _ | _⟩ <;> rfl

section

variable {m : Type → Type} [Source m] [Reading m] {n : ℕ}

lemma reads_each_text (texts : List String) :
    List.Forall₂ (fun item text => reads n item (Source.text : m _) text) (texts.map .string)
      texts := by
  rw [List.forall₂_map_left_iff, List.forall₂_same]
  exact fun _ _ => Reading.text

lemma reads_mapping (mapping : List (String × String)) :
    reads (n + 1) (.object (Keywords.mapEntries .string mapping))
      (Source.entries Source.text : m _) mapping := by
  apply Reading.entries
  rw [Keywords.mapEntries, List.forall₂_map_left_iff, List.forall₂_same]
  exact fun _ _ => ⟨rfl, Reading.text⟩

end

lemma Discriminator.decode_toJson {d : Discriminator String} (h : (d.mapping.map (·.1)).Nodup) :
    RawReader.decode Discriminator.decode (ValueReader.raw d.toJson) = some d := by
  rw [toJson_eq]
  refine Reading.bind (m := RawReader) (n := 2) (a := (some d.property, d.mapping))
    (reads_fields ?_ ?_ ?_) rfl
  · refine List.forall_mem_cons.mpr ⟨List.mem_cons_self, fun entry hentry => ?_⟩
    rw [Keywords.mem_mapEntry hentry]
    exact List.mem_cons_of_mem _ (List.mem_singleton_self _)
  · have hkeys := (Keywords.keys_mapEntry "mapping" (Keywords.mapEntries .string d.mapping))
    exact (hkeys.cons_cons "propertyName").nodup (by decide)
  · refine .cons (t := (some d.property, [])) rfl ?_
    cases hmapping : d.mapping with
    | nil => exact .nil _
    | cons entry rest =>
      rw [hmapping] at h
      refine .cons ?_ (.nil _)
      refine Reading.bind (m := RawReader) (n := 1) (reads_mapping (entry :: rest)) ?_
      rw [Entries.ofList_of_nodup h]

def DiscriminatorForm.DistinctKeys : DiscriminatorForm → Prop
  | name _ => True
  | object d => (d.mapping.map (·.1)).Nodup

lemma DiscriminatorForm.ofRaw_toJson {form : DiscriminatorForm} (h : form.DistinctKeys) :
    ofRaw? (ValueReader.raw form.toJson) = some form := by
  cases form with
  | name property => rfl
  | object d =>
    have hdecode := Discriminator.decode_toJson h
    rw [DiscriminatorForm.toJson]
    rw [Discriminator.toJson_eq, ValueReader.raw_object] at hdecode ⊢
    rw [ofRaw?, hdecode]
    · rfl
    · exact nofun

lemma DiscriminatorForm.toJson_not_null (form : DiscriminatorForm) :
    form.toJson.isNull = false := by
  cases form <;> rfl

namespace Schema

lemma toJson_object (s : Schema) : ∃ entries, s.toJson = .object entries := by
  cases s with
  | ref target => exact ⟨_, toJson_ref target⟩
  | inline k => exact ⟨_, toJson_inline k⟩

lemma raw_toJson (s : Schema) : ∃ entries, ValueReader.raw s.toJson = .map entries := by
  obtain ⟨entries, h⟩ := s.toJson_object
  rw [h, ValueReader.raw_object]
  exact ⟨_, rfl⟩

lemma toJson_not_null (s : Schema) : s.toJson.isNull = false := by
  obtain ⟨entries, h⟩ := s.toJson_object
  rw [h]
  rfl

/-- Where so many levels may be entered, the written schema is read as the settled one. -/
def Understood (schema : Raw → Option Schema) (n : ℕ) (s : Schema) : Prop :=
  s.toJson.Nests n → schema (ValueReader.raw s.toJson) = some s.settled

end Schema

open Schema (settled)

section

variable {schema : Raw → Option Schema} {n : ℕ}

lemma Additional.toJson_not_null (additional : Additional Schema) :
    (additional.map Schema.toJson).toJson.isNull = false := by
  cases additional with
  | allowed flag => rfl
  | schema s => exact s.toJson_not_null

lemma Additional.ofRaw_toJson {additional : Additional Schema}
    (h : ∀ s, additional = .schema s → s.Understood schema n)
    (hj : (additional.map Schema.toJson).toJson.Nests n) :
    ofRaw? schema (ValueReader.raw (additional.map Schema.toJson).toJson) =
      some (additional.map settled) := by
  cases additional with
  | allowed flag => rfl
  | schema s =>
    have hread := h s rfl hj
    change ofRaw? schema (ValueReader.raw s.toJson) = some (.schema s.settled)
    obtain ⟨entries, hentries⟩ := s.raw_toJson
    rw [hentries] at hread ⊢
    rw [ofRaw?, hread]
    · rfl
    · exact nofun

lemma Items.toJson_not_null (items : Items Schema) :
    (items.map Schema.toJson).toJson.isNull = false := by
  cases items with
  | each s => exact s.toJson_not_null
  | tuple ss => rfl

lemma Items.ofRaw_toJson {items : Items Schema} (hlist : ∀ rs, schema (.list rs) = none)
    (heach : ∀ s, items = .each s → s.Understood schema n)
    (htuple : ∀ ss, items = .tuple ss → ∀ s ∈ ss, s.Understood schema n)
    (hj : (items.map Schema.toJson).toJson.Nests n) :
    ofRaw? schema (ValueReader.raw (items.map Schema.toJson).toJson) =
      some (items.map settled) := by
  cases items with
  | each s =>
    have hread := heach s rfl hj
    change ofRaw? schema (ValueReader.raw s.toJson) = some (.each s.settled)
    obtain ⟨entries, hentries⟩ := s.raw_toJson
    rw [hentries] at hread ⊢
    rw [ofRaw?, hread]
    · rfl
    · exact nofun
  | tuple ss =>
    -- A schema is an object, so that the list is not taken for one.
    have hitems : ((ss.map Schema.toJson).map ValueReader.raw).mapM schema =
        some (ss.map settled) := by
      apply RawReader.mapM_raw
      rw [List.forall₂_map_left_iff, List.forall₂_map_right_iff, List.forall₂_same]
      intro s hs
      obtain ⟨below, rfl, hbelow⟩ := hj.items
      exact htuple ss rfl s hs ((hbelow _ (List.mem_map_of_mem hs)).mono (Nat.le_succ _))
    change ofRaw? schema (ValueReader.raw (.array (ss.map Schema.toJson))) =
      some (.tuple (ss.map settled))
    rw [ValueReader.raw_array, ofRaw?, hlist, hitems]
    rfl

end

namespace Keywords

section

variable {m : Type → Type} [Source m] [Reading m] {n : ℕ} {schema : Raw → Option Schema}

lemma reads_child {s : Schema} {below : ℕ} (hle : below ≤ n) (h : s.Understood schema n)
    (hj : legible m below s.toJson) :
    reads below s.toJson (Decode.oneOf "SchemaOrRef" schema : m _) s.settled :=
  reads_oneOf hj (h ((Reading.nests hj).mono hle))

lemma reads_schemas {entries : List (String × Schema)}
    (h : Named (Schema.Understood schema n) entries)
    (hj : legible m n (.object (mapEntries Schema.toJson entries))) :
    reads n (.object (mapEntries Schema.toJson entries)) (decodeSchemas schema : m _)
      (mapEntries settled entries) := by
  obtain ⟨below, rfl, hentries⟩ := Reading.legible_entries hj
  have hkeys : ((mapEntries settled entries).map (·.1)).Nodup := by
    rw [mapEntries, List.map_map]
    exact h.1
  refine Reading.bind (a := mapEntries settled entries) (Reading.entries ?_) ?_
  · rw [mapEntries, mapEntries, List.forall₂_map_left_iff, List.forall₂_map_right_iff,
      List.forall₂_same]
    intro entry hentry
    refine ⟨rfl, reads_child (Nat.le_succ _) (h.2 entry hentry) ?_⟩
    exact hentries _ (List.mem_map.mpr ⟨entry, hentry, rfl⟩)
  · rw [Entries.ofList_of_nodup hkeys]

lemma reads_components {entries : List (String × Schema)}
    (h : Named (Schema.Understood schema n) entries)
    (hj : legible m n (.object (mapEntry "schemas" (mapEntries Schema.toJson entries)))) :
    reads n (.object (mapEntry "schemas" (mapEntries Schema.toJson entries)))
      (decodeComponents schema : m _) (mapEntries settled entries) := by
  obtain ⟨below, rfl, hentries⟩ := Reading.legible_entries hj
  refine reads_fields ?_ ?_ ?_
  · intro entry hentry
    rw [mem_mapEntry hentry]
    exact List.mem_singleton_self _
  · exact (keys_mapEntry _ _).nodup (List.nodup_singleton _)
  · cases entries with
    | nil => exact .nil _
    | cons entry rest =>
      refine .cons ?_ (.nil _)
      have hnamed : Named (Schema.Understood schema below) (entry :: rest) := by
        refine ⟨h.1, fun e he hbelow => h.2 e he (hbelow.mono (Nat.le_succ _))⟩
      exact reads_schemas hnamed (hentries _ List.mem_cons_self)

end

/-- What decoding makes of the keywords that hold no schemas. -/
structure Sound {α : Type} (k : Keywords α) : Prop where
  discriminator : ∀ form, k.discriminator = some form → form.DistinctKeys
  enumeration : ∀ j ∈ k.enumeration, ∃ levels, j.Canonical levels
  extra : ∀ entry ∈ k.extra, entry.1 ∉ names ∧ ∃ levels, entry.2.Canonical levels
  extraKeys : (k.extra.map (·.1)).Nodup

lemma Sound.keys_nodup {k : Keywords Schema} (h : k.Sound) :
    (((k.map Schema.toJson).ownEntries ++ k.extra).map (·.1)).Nodup := by
  have hown := keys_ownEntries (k.map Schema.toJson)
  rw [List.map_append]
  refine (hown.nodup (by decide)).append h.extraKeys fun name hmem hextra => ?_
  obtain ⟨entry, hentry, rfl⟩ := List.mem_map.mp hextra
  exact (h.extra entry hentry).1 (hown.subset hmem)

section

variable (m : Type → Type) [Source m] [Reading m] (schema : Raw → Option Schema) (n : ℕ)

/-- The entries are read as keywords, one after another, if they can be read at all. -/
def Takes (s : Keywords Schema) (entries : List (String × Json)) (t : Keywords Schema) : Prop :=
  (∀ entry ∈ entries, legible m n entry.2) →
    Taken (fun name j s t => reads n j (decodeKeyword schema name s : m _) t) s entries t

end

section

variable {m : Type → Type} [Source m] [Reading m] {n : ℕ} {schema : Raw → Option Schema}
  {α β : Type} {name : String} {s t u : Keywords Schema}

lemma Takes.append {entries more : List (String × Json)} (h : Takes m schema n s entries t)
    (hmore : Takes m schema n t more u) : Takes m schema n s (entries ++ more) u := by
  intro hlegible
  obtain ⟨hentries, hrest⟩ := List.forall_mem_append.mp hlegible
  exact (h hentries).append (hmore hrest)

lemma takes_optional (name : String) {x : m α} (write : β → Json) {b : Option β} {a : Option α}
    (u : Keywords Schema → Option α → Keywords Schema)
    (hstep : decodeKeyword schema name s = Source.optional x >>= fun a => pure (u s a))
    (hnone : u s none = s)
    (h : Option.Rel (fun b a => legible m n (write b) →
      (write b).isNull = false ∧ reads n (write b) x a) b a) :
    Takes m schema n s (optionalEntry name write b) (u s a) := by
  intro hlegible
  cases h with
  | none =>
    rw [hnone]
    exact .nil _
  | some h =>
    obtain ⟨hnull, hread⟩ := h (hlegible _ (List.mem_singleton_self _))
    refine .cons ?_ (.nil _)
    rw [hstep]
    exact Reading.bind (Reading.optional hnull hread) rfl

lemma takes_list (name : String) {x : m α} {items : List Json} {as : List α}
    (u : Keywords Schema → List α → Keywords Schema)
    (hstep : decodeKeyword schema name s = Source.list x >>= fun as => pure (u s as))
    (hnil : u s [] = s)
    (h : ∀ below ≤ n, (∀ item ∈ items, legible m below item) →
      List.Forall₂ (fun item a => reads below item x a) items as) :
    Takes m schema n s (listEntry name items) (u s as) := by
  intro hlegible
  cases items with
  | nil =>
    cases h 0 (Nat.zero_le n) (by simp)
    rw [hnil]
    exact .nil _
  | cons item rest =>
    obtain ⟨below, rfl, hitems⟩ := Reading.legible_items (hlegible _ (List.mem_singleton_self _))
    refine .cons ?_ (.nil _)
    rw [hstep]
    exact Reading.bind (Reading.list (h below (Nat.le_succ _) hitems)) rfl

lemma takes_map (name : String) {entries : List (String × Schema)}
    (u : Keywords Schema → List (String × Schema) → Keywords Schema)
    (hstep : (decodeKeyword schema name s : m _) =
      decodeSchemas schema >>= fun es => pure (u s es))
    (hnil : u s [] = s) (h : Named (Schema.Understood schema n) entries) :
    Takes m schema n s (mapEntry name (mapEntries Schema.toJson entries))
      (u s (mapEntries settled entries)) := by
  intro hlegible
  cases entries with
  | nil =>
    have hnil : u s (mapEntries settled []) = s := hnil
    rw [hnil]
    exact .nil _
  | cons entry rest =>
    refine .cons ?_ (.nil _)
    rw [hstep]
    exact Reading.bind (reads_schemas h (hlegible _ (List.mem_singleton_self _))) rfl

lemma rel_self {r : α → α → Prop} {a : Option α} (h : ∀ b, a = some b → r b b) :
    Option.Rel r a a := by
  cases a with
  | none => exact .none
  | some b => exact .some (h b rfl)

lemma rel_map {γ : Type} {r : β → γ → Prop} {f : α → β} {g : α → γ} {a : Option α}
    (h : ∀ b, a = some b → r (f b) (g b)) : Option.Rel r (a.map f) (a.map g) := by
  cases a with
  | none => exact .none
  | some b => exact .some (h b rfl)

lemma takes_text (name : String) (text : Option String)
    (u : Keywords Schema → Option String → Keywords Schema)
    (hstep : (decodeKeyword schema name s : m _) =
      Source.optional Source.text >>= fun text => pure (u s text))
    (hnone : u s none = s) : Takes m schema n s (optionalEntry name .string text) (u s text) :=
  takes_optional name _ u hstep hnone (rel_self fun _ _ _ => ⟨rfl, Reading.text⟩)

lemma takes_flag (name : String) (flag : Option Bool)
    (u : Keywords Schema → Option Bool → Keywords Schema)
    (hstep : (decodeKeyword schema name s : m _) =
      Source.optional Source.flag >>= fun flag => pure (u s flag))
    (hnone : u s none = s) : Takes m schema n s (optionalEntry name .bool flag) (u s flag) :=
  takes_optional name _ u hstep hnone (rel_self fun _ _ _ => ⟨rfl, Reading.flag⟩)

lemma takes_children (name : String) {ss : List Schema}
    (u : Keywords Schema → List Schema → Keywords Schema)
    (hstep : (decodeKeyword schema name s : m _) =
      Source.list (Decode.oneOf "SchemaOrRef" schema) >>= fun ss => pure (u s ss))
    (hnil : u s [] = s) (h : ∀ s ∈ ss, s.Understood schema n) :
    Takes m schema n s (listEntry name (ss.map Schema.toJson)) (u s (ss.map settled)) := by
  refine takes_list name u hstep hnil fun below hle hlegible => ?_
  rw [List.forall₂_map_left_iff, List.forall₂_map_right_iff, List.forall₂_same]
  exact fun s hs => reads_child hle (h s hs) (hlegible _ (List.mem_map_of_mem hs))

lemma reads_alternatives {alternatives : List (Option Schema)} {below : ℕ} (hle : below ≤ n)
    (h : ∀ s, some s ∈ alternatives → s.Understood schema n)
    (hlegible : ∀ item ∈ (alternatives.map (Option.map Schema.toJson)).map (·.getD .null),
      legible m below item) :
    List.Forall₂ (fun item a => reads below item
        (Source.optional (Decode.oneOf "SchemaOrRef" schema) : m _) a)
      ((alternatives.map (Option.map Schema.toJson)).map (·.getD .null))
      (alternatives.map (Option.map settled)) := by
  rw [List.forall₂_map_left_iff, List.forall₂_map_left_iff, List.forall₂_map_right_iff,
    List.forall₂_same]
  intro a ha
  have hitem := hlegible _ (List.mem_map_of_mem (List.mem_map_of_mem ha))
  cases a with
  | none => exact Reading.null
  | some s => exact Reading.optional s.toJson_not_null (reads_child hle (h s ha) hitem)

lemma reads_values {values : List Json} {below : ℕ}
    (h : ∀ j ∈ values, ∃ levels, j.Canonical levels)
    (hlegible : ∀ item ∈ values, legible m below item) :
    List.Forall₂ (fun item j => reads below item (Source.json : m _) j) values values := by
  rw [List.forall₂_same]
  intro j hj
  obtain ⟨levels, hcanonical⟩ := h j hj
  exact Reading.json (hlegible j hj) hcanonical

lemma named_components {components : Option (List (String × Schema))}
    {entries : List (String × Schema)} {P : Schema → Prop} (h : Named P (components.getD []))
    (hentries : components = some entries) : Named P entries := by
  rw [hentries] at h
  exact h

variable {k : Keywords Schema} (hk : k.Keyed (Schema.Understood schema n)) (hsound : k.Sound)
  (hlist : ∀ rs, schema (.list rs) = none)

include hk hsound hlist

lemma takes_own :
    Takes m schema n {} (k.map Schema.toJson).ownEntries { k.map settled with extra := [] } := by
  have h : Takes m schema n {} (optionalEntry "type" TypeSet.toJson k.types) { types := k.types } :=
    takes_optional "type" TypeSet.toJson (fun k types => { k with types }) rfl rfl
      (rel_self fun types _ hj =>
        ⟨types.toJson_not_null, reads_oneOf hj types.ofRaw_toJson⟩)
  replace h := h.append (takes_text "format" k.format (fun k format => { k with format }) rfl rfl)
  replace h := h.append (takes_text "title" k.title (fun k title => { k with title }) rfl rfl)
  replace h := h.append
    (takes_text "description" k.description (fun k description => { k with description }) rfl rfl)
  -- Records of records are made plain now and then, lest they grow too large to compare.
  dsimp only at h
  replace h := h.append (takes_flag "nullable" k.nullable
    (fun k nullable => { k with nullable }) rfl rfl)
  replace h := h.append (takes_flag "x-nullable" k.xNullable
    (fun k xNullable => { k with xNullable }) rfl rfl)
  replace h := h.append (takes_map "properties"
    (fun k properties => { k with properties }) rfl rfl hk.properties)
  replace h := h.append (takes_list "required" (fun k required => { k with required }) rfl rfl
    fun _ _ _ => reads_each_text k.required)
  dsimp only at h
  replace h := h.append (takes_optional "additionalProperties" Additional.toJson
    (fun k additional => { k with additional }) rfl rfl
    (rel_map (a := k.additional) fun additional ha hj =>
      ⟨additional.toJson_not_null, reads_oneOf hj (Additional.ofRaw_toJson
        (fun s hs => hk.additional s (hs ▸ ha)) (Reading.nests hj))⟩))
  replace h := h.append (takes_map "patternProperties"
    (fun k patterns => { k with patterns }) rfl rfl hk.patterns)
  replace h := h.append (takes_optional "x-dictionaryKey" id
    (fun k dictionaryKey => { k with dictionaryKey }) rfl rfl
    (rel_map (a := k.dictionaryKey) (f := Schema.toJson) fun s hs hj =>
      ⟨s.toJson_not_null, reads_child (Nat.le_refl n) (hk.dictionaryKey s hs) hj⟩))
  replace h := h.append (takes_optional "items" Items.toJson
    (fun k items => { k with items }) rfl rfl
    (rel_map (a := k.items) fun items hitems hj =>
      ⟨items.toJson_not_null, reads_oneOf hj (Items.ofRaw_toJson hlist
        (fun s hs => hk.each s (hs ▸ hitems)) (fun ss hss => hk.tuple ss (hss ▸ hitems))
        (Reading.nests hj))⟩))
  dsimp only at h
  replace h := h.append (takes_children "allOf" (fun k allOf => { k with allOf }) rfl rfl hk.allOf)
  replace h := h.append (takes_list "oneOf" (fun k oneOf => { k with oneOf }) rfl rfl
    fun _ hle hj => reads_alternatives hle hk.oneOf hj)
  replace h := h.append (takes_children "anyOf" (fun k anyOf => { k with anyOf }) rfl rfl hk.anyOf)
  replace h := h.append (takes_optional "discriminator" DiscriminatorForm.toJson
    (fun k discriminator => { k with discriminator }) rfl rfl
    (rel_self (a := k.discriminator) fun form hform hj => ⟨form.toJson_not_null,
      reads_oneOf hj (DiscriminatorForm.ofRaw_toJson (hsound.discriminator form hform))⟩))
  dsimp only at h
  replace h := h.append (takes_list "enum" (fun k enumeration => { k with enumeration }) rfl rfl
    fun _ _ hj => reads_values hsound.enumeration hj)
  replace h := h.append (takes_map "definitions"
    (fun k definitions => { k with definitions }) rfl rfl hk.definitions)
  replace h := h.append (takes_map "$defs" (fun k defs => { k with defs }) rfl rfl hk.defs)
  replace h := h.append (takes_optional "components"
    (fun schemas => .object (mapEntry "schemas" schemas))
    (fun k components => { k with components }) rfl rfl
    (rel_map (a := k.components) (f := mapEntries Schema.toJson) (g := mapEntries settled)
      fun entries hentries hj =>
        ⟨rfl, reads_components (named_components hk.components hentries) hj⟩))
  dsimp only at h
  exact h

omit hk hsound hlist

lemma reads_other {j : Json} {levels : ℕ} (hname : name ∉ names) (hj : legible m n j)
    (hcanonical : j.Canonical levels) :
    reads n j (decodeKeyword schema name s : m _)
      { s with extra := Entries.put name j s.extra } := by
  unfold decodeKeyword
  split
  case h_21 =>
    refine Reading.bind (Reading.raw hj) ?_
    rw [Raw.json_raw hcanonical]
  all_goals exact absurd (by decide) hname

lemma takes_extra (before : List (String × Json)) {entries : List (String × Json)}
    (hentries : ∀ entry ∈ entries, entry.1 ∉ names ∧ ∃ levels, entry.2.Canonical levels)
    (hnodup : ((before ++ entries).map (·.1)).Nodup) :
    Takes m schema n { s with extra := before } entries { s with extra := before ++ entries } := by
  intro hlegible
  induction entries generalizing before with
  | nil =>
    rw [List.append_nil]
    exact .nil _
  | cons entry rest ih =>
    obtain ⟨⟨hname, levels, hcanonical⟩, hrest⟩ := List.forall_mem_cons.mp hentries
    obtain ⟨hfirst, hlegible⟩ := List.forall_mem_cons.mp hlegible
    have hfresh : entry.1 ∉ before.map (·.1) := by
      rw [List.map_append, List.nodup_append] at hnodup
      exact fun hmem => hnodup.2.2 _ hmem _ List.mem_cons_self rfl
    have hread : reads n entry.2
        (decodeKeyword schema entry.1 { s with extra := before } : m (Keywords Schema))
        { s with extra := Entries.put entry.1 entry.2 before } :=
      reads_other hname hfirst hcanonical
    rw [Entries.put_fresh hfresh] at hread
    refine .cons hread ?_
    have hsplit : before ++ entry :: rest = before ++ [(entry.1, entry.2)] ++ rest := by simp
    rw [hsplit] at hnodup ⊢
    exact ih _ hrest hnodup hlegible

lemma repeatedKeyword_fresh {seen : List String} (h : name ∉ seen) :
    repeatedKeyword name (seen, s) = none := by
  rw [repeatedKeyword, repetition_fresh h, ite_self]

include hk hsound hlist

/-- What is written for the keywords is read as the keywords with each schema below settled. -/
lemma reads_toJson (hj : legible m (n + 1) (k.map Schema.toJson).toJson) :
    reads (n + 1) (k.map Schema.toJson).toJson (decode schema : m _) (k.map settled) := by
  have htakes := (takes_own hk hsound hlist (m := m)).append
    (takes_extra [] hsound.extra hsound.extraKeys)
  obtain ⟨below, hbelow, hlegible⟩ := Reading.legible_entries hj
  cases hbelow
  obtain ⟨marked, htaken⟩ :=
    (htakes hlegible).marked (fun _ _ _ => repeatedKeyword_fresh) hsound.keys_nodup
  exact Reading.bind (Reading.keywords htaken) rfl

end

end Keywords

end SchemaTypes
