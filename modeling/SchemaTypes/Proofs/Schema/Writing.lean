import SchemaTypes.Proofs.Schema.Children
import SchemaTypes.Schema.Decode
import SchemaTypes.Schema.Encode

/-! What schemas are written as, and what a written schema is read as. A schema below another one is
read as a reference whenever it is written with a text under `$ref`. -/

namespace SchemaTypes

namespace Keywords

variable {α β : Type}

section

variable {m : Type → Type} [Monad m] [LawfulMonad m]

lemma traverseEntries_pure (f : α → β) :
    traverseEntries (fun _ a => (pure (f a) : m β)) =
      fun entries => pure (mapEntries f entries) := by
  funext entries
  simp [traverseEntries, mapEntries, List.mapM_pure]

lemma traverseOption_pure (f : α → β) :
    traverseOption (fun a => (pure (f a) : m β)) = fun a => pure (a.map f) := by
  funext a
  cases a <;> simp [traverseOption]

lemma traverseList_pure (f : α → β) (as : List α) :
    traverseList (fun _ a => (pure (f a) : m β)) as = pure (as.map f) := by
  have hmap : as.zipIdx.map (fun entry => f entry.1) = as.map f := by
    rw [← Function.comp_def, ← List.map_map, List.zipIdx_map_fst]
  rw [traverseList, List.mapM_pure, hmap]

lemma traverse_pure (f : α → β) (k : Keywords α) :
    (k.traverse fun _ a => (pure (f a) : m β)) = pure (k.map f) := by
  have hadditional : traverseAdditional (fun a => (pure (f a) : m β)) k.additional =
      pure (k.additional.map (Additional.map f)) := by
    rcases k.additional with _ | _ | _ <;> simp [traverseAdditional, Additional.map]
  have hitems : traverseItems (fun _ a => (pure (f a) : m β)) k.items =
      pure (k.items.map (Items.map f)) := by
    rcases k.items with _ | _ | _ <;> simp [traverseItems, Items.map, traverseList_pure]
  simp only [traverse, traverseEntries_pure, traverseOption_pure, traverseList_pure, hadditional,
    hitems, pure_bind]
  rfl

end

/-- The entries of the modelled keywords, in the order in which they are written. -/
def ownEntries (k : Keywords Json) : List (String × Json) :=
  optionalEntry "type" TypeSet.toJson k.types ++
  optionalEntry "format" .string k.format ++
  optionalEntry "title" .string k.title ++
  optionalEntry "description" .string k.description ++
  optionalEntry "nullable" .bool k.nullable ++
  optionalEntry "x-nullable" .bool k.xNullable ++
  mapEntry "properties" k.properties ++
  listEntry "required" (k.required.map .string) ++
  optionalEntry "additionalProperties" Additional.toJson k.additional ++
  mapEntry "patternProperties" k.patterns ++
  optionalEntry "x-dictionaryKey" id k.dictionaryKey ++
  optionalEntry "items" Items.toJson k.items ++
  listEntry "allOf" k.allOf ++
  listEntry "oneOf" (k.oneOf.map (·.getD .null)) ++
  listEntry "anyOf" k.anyOf ++
  optionalEntry "discriminator" DiscriminatorForm.toJson k.discriminator ++
  listEntry "enum" k.enumeration ++
  mapEntry "definitions" k.definitions ++
  mapEntry "$defs" k.defs ++
  optionalEntry "components" (fun schemas => .object (mapEntry "schemas" schemas)) k.components

lemma toJson_eq (k : Keywords Json) : k.toJson = .object (k.ownEntries ++ k.extra) := rfl

lemma mem_optionalEntry {name : String} {write : α → Json} {a : Option α} {entry : String × Json}
    (h : entry ∈ optionalEntry name write a) : ∃ b, a = some b ∧ entry = (name, write b) := by
  cases a with
  | none => cases h
  | some b => exact ⟨b, rfl, List.mem_singleton.mp h⟩

lemma mem_listEntry {name : String} {items : List Json} {entry : String × Json}
    (h : entry ∈ listEntry name items) : entry = (name, .array items) := by
  cases items with
  | nil => cases h
  | cons item rest => exact List.mem_singleton.mp h

lemma mem_mapEntry {name : String} {entries : List (String × Json)} {entry : String × Json}
    (h : entry ∈ mapEntry name entries) : entry = (name, .object entries) := by
  cases entries with
  | nil => cases h
  | cons first rest => exact List.mem_singleton.mp h

lemma keys_optionalEntry (name : String) (write : α → Json) (a : Option α) :
    ((optionalEntry name write a).map (·.1)).Sublist [name] := by
  cases a with
  | none => exact List.nil_sublist _
  | some a => exact List.Sublist.refl _

lemma keys_listEntry (name : String) (items : List Json) :
    ((listEntry name items).map (·.1)).Sublist [name] := by
  cases items with
  | nil => exact List.nil_sublist _
  | cons item rest => exact List.Sublist.refl _

lemma keys_mapEntry (name : String) (entries : List (String × Json)) :
    ((mapEntry name entries).map (·.1)).Sublist [name] := by
  cases entries with
  | nil => exact List.nil_sublist _
  | cons entry rest => exact List.Sublist.refl _

lemma keys_append {entries more : List (String × Json)} {names others : List String}
    (h : (entries.map (·.1)).Sublist names) (hmore : (more.map (·.1)).Sublist others) :
    ((entries ++ more).map (·.1)).Sublist (names ++ others) := by
  rw [List.map_append]
  exact h.append hmore

/-- The modelled keywords are written in the order in which they are listed, each at most once. -/
lemma keys_ownEntries (k : Keywords Json) : (k.ownEntries.map (·.1)).Sublist names := by
  have hnames : names = ["type"] ++ ["format"] ++ ["title"] ++ ["description"] ++ ["nullable"] ++
      ["x-nullable"] ++ ["properties"] ++ ["required"] ++ ["additionalProperties"] ++
      ["patternProperties"] ++ ["x-dictionaryKey"] ++ ["items"] ++ ["allOf"] ++ ["oneOf"] ++
      ["anyOf"] ++ ["discriminator"] ++ ["enum"] ++ ["definitions"] ++ ["$defs"] ++
      ["components"] := rfl
  rewrite [hnames]
  delta ownEntries
  refine keys_append ?_ (keys_optionalEntry _ _ _)
  refine keys_append ?_ (keys_mapEntry _ _)
  refine keys_append ?_ (keys_mapEntry _ _)
  refine keys_append ?_ (keys_listEntry _ _)
  refine keys_append ?_ (keys_optionalEntry _ _ _)
  refine keys_append ?_ (keys_listEntry _ _)
  refine keys_append ?_ (keys_listEntry _ _)
  refine keys_append ?_ (keys_listEntry _ _)
  refine keys_append ?_ (keys_optionalEntry _ _ _)
  refine keys_append ?_ (keys_optionalEntry _ _ _)
  refine keys_append ?_ (keys_mapEntry _ _)
  refine keys_append ?_ (keys_optionalEntry _ _ _)
  refine keys_append ?_ (keys_listEntry _ _)
  refine keys_append ?_ (keys_mapEntry _ _)
  refine keys_append ?_ (keys_optionalEntry _ _ _)
  refine keys_append ?_ (keys_optionalEntry _ _ _)
  refine keys_append ?_ (keys_optionalEntry _ _ _)
  refine keys_append ?_ (keys_optionalEntry _ _ _)
  refine keys_append ?_ (keys_optionalEntry _ _ _)
  exact keys_optionalEntry _ _ _

/-- The text that is under `$ref` though the schema is no reference. -/
def looseTarget? (k : Keywords α) : Option String := (k.extra.lookup "$ref").bind Json.text?

end Keywords

namespace Schema

lemma toJson_ref (target : String) :
    (ref target).toJson = .object [("$ref", .string target)] := rfl

lemma toJson_inline (k : Keywords Schema) : (inline k).toJson = (k.map toJson).toJson := by
  have hrun : Id.run ((k.map fun s => (s, s.toJson)).traverse fun _ child => pure child.2) =
      k.map toJson := by
    rw [Keywords.traverse_pure, Keywords.map_map]
    rfl
  rw [toJson, fold_inline]
  exact congrArg Keywords.toJson hrun

/-- The schema that is read where the schema is written. -/
def settled : Schema → Schema :=
  fold .ref fun k =>
    match k.looseTarget? with
    | some target => .ref target
    | none => .inline (k.map (·.2))

lemma settled_ref (target : String) : (ref target).settled = .ref target := rfl

lemma settled_of_loose {k : Keywords Schema} {target : String} (h : k.looseTarget? = some target) :
    (inline k).settled = .ref target := by
  rw [settled, fold_inline]
  have hloose : (k.map fun s => (s, s.settled)).looseTarget? = some target := h
  simp only [settled] at hloose
  rw [hloose]

lemma settled_of_not_loose {k : Keywords Schema} (h : k.looseTarget? = none) :
    (inline k).settled = .inline (k.map settled) := by
  rw [settled, fold_inline]
  have hloose : (k.map fun s => (s, s.settled)).looseTarget? = none := h
  simp only [settled] at hloose
  rw [hloose]
  simp only [Keywords.map_map]

end Schema

end SchemaTypes
