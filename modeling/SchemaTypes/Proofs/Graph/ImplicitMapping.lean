import SchemaTypes.Proofs.Graph.Targets

/-! The mapping of a discriminator that the document gives none: each reference among the
alternatives is mapped by the last segment of its text, which is the name of the definition unless
a slash stands behind it. -/

namespace SchemaTypes

lemma Pointer.lastSegment_eq {pointer : String} {before segment : List Char}
    (hslash : '/' ∉ segment) (h : pointer.toList = before ++ '/' :: segment) :
    lastSegment pointer = String.ofList segment := by
  have htake : (segment.reverse ++ '/' :: before.reverse).takeWhile (· != '/') =
      segment.reverse := by
    rw [List.takeWhile_append_of_pos]
    · simp
    · intro c hc
      exact bne_iff_ne.mpr fun heq => hslash (heq ▸ List.mem_reverse.mp hc)
  rw [lastSegment, h]
  simp [htake]

lemma Path.Spells.unescape_lastSegment {named : Path} {name target : String}
    (hname : named.definitionName? = some name) (h : named.Spells target) :
    Pointer.unescape (Pointer.lastSegment target) =
      if target.toList.getLast? = some '/' then "" else name := by
  obtain ⟨n, htarget⟩ := h
  cases n with
  | zero =>
    rw [List.replicate_zero, List.append_nil, String.toList_inj] at htarget
    subst htarget
    have hunescape : Pointer.unescape (Pointer.lastSegment (Path.text named)) = name := by
      obtain ⟨above, group, rfl⟩ := definitionName?_eq_some.mp hname
      rw [Pointer.lastSegment_eq (Pointer.slash_not_mem_escapeChars _) (text_definition _ _ _)]
      simp [Pointer.unescape, Pointer.unescapeChars_escapeChars]
    rw [hunescape]
    split
    case isTrue hlast => exact (text_ends_slash hname).mp hlast
    case isFalse => rfl
  | succ n =>
    rw [List.replicate_succ', ← List.append_assoc] at htarget
    rw [Pointer.lastSegment_eq List.not_mem_nil htarget, htarget, List.getLast?_concat, if_pos rfl]
    rfl

namespace Keywords

/-- The texts of the references among the alternatives. -/
def choiceTargets (k : Keywords Schema) : List String :=
  k.oneOf.filterMap fun alternative => alternative.bind Schema.reference?

/-- The reference names a definition, and the entry is the name and the number of it. -/
def Declares (root : Keywords Schema) (target : String) (entry : String × SchemaId) : Prop :=
  ∃ named, root.Defines named entry.1 ∧ entry.1 ≠ "" ∧ named.Spells target ∧
    entry.2 = root.number named

lemma Declares.unique {root : Keywords Schema} {target : String} {a b : String × SchemaId}
    (ha : root.Declares target a) (hb : root.Declares target b) : a = b := by
  obtain ⟨named, hdefines, hne, hspells, ha⟩ := ha
  obtain ⟨other, hdefines', hne', hspells', hb⟩ := hb
  obtain rfl : named = other := hspells.unique (Path.not_ends_slash hdefines.2 hne) hspells'
    (Path.not_ends_slash hdefines'.2 hne')
  exact Prod.ext (Option.some.inj (hdefines.2.symm.trans hdefines'.2)) (ha.trans hb.symm)

lemma Declares.name_eq {root : Keywords Schema} {target : String} {entry : String × SchemaId}
    (h : root.Declares target entry) (hend : target.toList.getLast? ≠ some '/') :
    entry.1 = Pointer.unescape (Pointer.lastSegment target) := by
  obtain ⟨named, hdefines, _, hspells, _⟩ := h
  rw [hspells.unescape_lastSegment hdefines.2, if_neg hend]

end Keywords

/-- The entry that a reference leaves in the mapping: with a slash behind, the name is lost. -/
def Discriminator.written (target : String) (entry : String × SchemaId) : String × SchemaId :=
  if target.toList.getLast? = some '/' then ("", entry.2) else entry

namespace Document

variable {root : Keywords Schema} {d : Document}

lemma declares_of_points (hkeys : (Schema.inline root).DistinctKeys)
    (h : ofKeywords root = .ok d) {target : String} (hnamed : ¬ Path.Spells [] target)
    {entry : String × SchemaId}
    (hentry : entry.1 = Pointer.unescape (Pointer.lastSegment target) ∧
      root.Points target entry.2) :
    ∃ declared, root.Declares target declared ∧ entry = Discriminator.written target declared := by
  obtain ⟨key, id⟩ := entry
  obtain ⟨rfl, hpoints⟩ := hentry
  obtain ⟨named, hreferable, hspells, rfl⟩ := referable_of_points hkeys h hpoints
  obtain rfl | ⟨name, hdefines, hne, _⟩ := hreferable
  · exact absurd hspells hnamed
  · refine ⟨(name, root.number named), ⟨named, hdefines, hne, hspells, rfl⟩, ?_⟩
    rw [hspells.unescape_lastSegment hdefines.2, Discriminator.written]
    split <;> rfl

lemma written_eq_eraseDups_iff {targets : List String} {declared : List (String × SchemaId)}
    (h : List.Forall₂ root.Declares targets declared) :
    Entries.ofList (List.zipWith Discriminator.written targets declared) = declared.eraseDups ↔
      (∀ target ∈ targets, target.toList.getLast? ≠ some '/') ∧
        ∀ a ∈ declared, ∀ b ∈ declared, a.1 = b.1 → a.2 = b.2 := by
  have hlength := h.length_eq
  have hzip : List.zipWith Discriminator.written targets declared =
      (targets.zip declared).map fun pair => Discriminator.written pair.1 pair.2 :=
    (List.map_uncurry_zip_eq_zipWith ..).symm
  constructor
  · intro heq
    have hmem {entry : String × SchemaId} :
        entry ∈ Entries.ofList (List.zipWith Discriminator.written targets declared) ↔
          entry ∈ declared := by
      rw [heq, List.mem_eraseDups]
    constructor
    · intro target htarget hslash
      rw [← List.map_fst_zip hlength.le] at htarget
      obtain ⟨⟨_, entry⟩, hpair, rfl⟩ := List.mem_map.mp htarget
      have hkey : "" ∈ (List.zipWith Discriminator.written targets declared).map (·.1) := by
        rw [hzip, List.map_map]
        exact List.mem_map.mpr ⟨_, hpair, by simp [Discriminator.written, hslash]⟩
      obtain ⟨other, hother, hempty⟩ := List.mem_map.mp (Entries.mem_keys_ofList.mpr hkey)
      obtain ⟨_, _, _, _, hne, _⟩ := Except.exists_of_forall₂_right h (hmem.mp hother)
      exact hne hempty
    · intro a ha b hb hkey
      exact congrArg (·.2) (List.inj_on_of_nodup_map (Entries.ofList_keys_nodup _)
        (hmem.mpr ha) (hmem.mpr hb) hkey)
  · rintro ⟨hplain, hfunctional⟩
    have hwritten : List.zipWith Discriminator.written targets declared = declared := by
      rw [hzip]
      refine (List.map_congr_left fun pair hpair => ?_).trans (List.map_snd_zip hlength.ge)
      rw [Discriminator.written, if_neg (hplain _ (List.of_mem_zip hpair).1)]
    rw [hwritten, Entries.ofList_eq_eraseDups hfunctional]

/-- A discriminator without a mapping gets one from the references among the alternatives. Each
maps the name of its definition, but for a slash behind the reference, and where two definitions
have the same name the last one takes its place. So each definition is mapped by its name exactly
if no reference ends in a slash and no two definitions share a name. -/
theorem implicit_mapping {text : String} {path : Path} {k : Keywords Schema} {property : String}
    (hparsed : parseJson text = .ok root ∨ parseYaml text = .ok root)
    (hlower : ofKeywords root = .ok d) (hat : (Schema.inline root).At path (.inline k))
    (hform : k.discriminator = some (.object ⟨property, []⟩))
    (hnamed : ∀ target ∈ k.choiceTargets, ¬ Path.Spells [] target) :
    ∃ mapping declared,
      (d.graph.node (root.number path)).discriminator = some ⟨property, mapping⟩ ∧
        List.Forall₂ root.Declares k.choiceTargets declared ∧
        mapping =
          Entries.ofList (List.zipWith Discriminator.written k.choiceTargets declared) ∧
        (mapping = declared.eraseDups ↔
          (∀ target ∈ k.choiceTargets, target.toList.getLast? ≠ some '/') ∧
            ∀ a ∈ declared, ∀ b ∈ declared, a.1 = b.1 → a.2 = b.2) := by
  have hkeys : (Schema.inline root).DistinctKeys :=
    hparsed.elim distinctKeys_of_parseJson distinctKeys_of_parseYaml
  have hdiscriminator := ((represents_of_distinctKeys hkeys hlower).node path _ hat).1.discriminator
  rw [hform] at hdiscriminator
  obtain ⟨mapping, hmapping, entries, rfl, hentries⟩ := hdiscriminator
  have hchoices : List.Forall₂ (fun target entry =>
      entry.1 = Pointer.unescape (Pointer.lastSegment target) ∧ root.Points target entry.2)
      k.choiceTargets entries := by
    convert hentries using 1
    refine List.filterMap_congr ?_
    rintro (_ | _ | _) _ <;> rfl
  obtain ⟨declared, hdeclared, rfl⟩ := Except.exists_zipWith_of_forall₂ hchoices
    fun target htarget _ hentry => declares_of_points hkeys hlower (hnamed target htarget) hentry
  exact ⟨_, declared, hmapping, hdeclared, rfl, written_eq_eraseDups_iff hdeclared⟩

def repeatedChoiceText : String :=
  "\x7b\"$defs\":\x7b\"a/b\":\x7b\x7d,\"C\":\x7b\x7d\x7d," ++
    "\"discriminator\":\x7b\"propertyName\":\"k\"\x7d,\"oneOf\":[\x7b\"$ref\":\"#/$defs/C\"\x7d," ++
    "null,\x7b\"$ref\":\"#/$defs/a~1b\"\x7d,\x7b\"type\":\"string\"\x7d," ++
    "\x7b\"$ref\":\"#/$defs/C\"\x7d]\x7d"

lemma repeatedChoice_load :
    ∃ root, parseJson repeatedChoiceText = .ok root ∧
      root.discriminator = some (.object ⟨"k", []⟩) ∧
      root.choiceTargets = ["#/$defs/C", "#/$defs/a~1b", "#/$defs/C"] ∧
      ∃ d, ofKeywords root = .ok d ∧ True := by
  decide +kernel

theorem repeatedChoice_mapped :
    ∃ root d, (parseJson repeatedChoiceText = .ok root ∨ parseYaml repeatedChoiceText = .ok root) ∧
      ofKeywords root = .ok d ∧ root.discriminator = some (.object ⟨"k", []⟩) ∧
      (∀ target ∈ root.choiceTargets, ¬ Path.Spells [] target) ∧
      ∃ declared, List.Forall₂ root.Declares root.choiceTargets declared ∧
        (d.graph.node (root.number [])).discriminator = some ⟨"k", declared.eraseDups⟩ := by
  obtain ⟨root, hroot, hform, htargets, d, hd, _⟩ := repeatedChoice_load
  have hnamed : ∀ target ∈ root.choiceTargets, ¬ Path.Spells [] target := by
    intro target htarget
    rw [htargets] at htarget
    rw [Path.spells_iff (by decide)]
    revert target
    decide
  obtain ⟨mapping, declared, hmapping, hdeclared, _, hiff⟩ :=
    implicit_mapping (.inl hroot) hd (.here _) hform hnamed
  have hplain : ∀ target ∈ root.choiceTargets, target.toList.getLast? ≠ some '/' := by
    rw [htargets]
    decide
  have hdistinct : ∀ a ∈ root.choiceTargets, ∀ b ∈ root.choiceTargets,
      Pointer.unescape (Pointer.lastSegment a) = Pointer.unescape (Pointer.lastSegment b) →
        a = b := by
    rw [htargets]
    decide
  refine ⟨root, d, .inl hroot, hd, hform, hnamed, declared, hdeclared, ?_⟩
  rw [hmapping, hiff.mpr ⟨hplain, fun a ha b hb hkey => ?_⟩]
  obtain ⟨target, htarget, hta⟩ := Except.exists_of_forall₂_right hdeclared ha
  obtain ⟨other, hother, htb⟩ := Except.exists_of_forall₂_right hdeclared hb
  have hsame : target = other := hdistinct target htarget other hother <| by
    rw [← hta.name_eq (hplain target htarget), ← htb.name_eq (hplain other hother), hkey]
  subst hsame
  rw [hta.unique htb]

def slashedChoiceText : String :=
  "\x7b\"definitions\":\x7b\"Cat\":\x7b\"type\":\"object\"\x7d\x7d," ++
    "\"discriminator\":\x7b\"propertyName\":\"kind\"\x7d," ++
    "\"oneOf\":[\x7b\"$ref\":\"#/definitions/Cat/\"\x7d]\x7d"

lemma slashedChoice_load :
    ∃ root, parseJson slashedChoiceText = .ok root ∧
      root.discriminator = some (.object ⟨"kind", []⟩) ∧
      root.choiceTargets = ["#/definitions/Cat/"] ∧
      ((Schema.inline root).get? [.definition .definitions "Cat"]).isSome ∧
      ∃ d, ofKeywords root = .ok d ∧
        (d.graph.node d.root).discriminator =
          some ⟨"kind", [("", root.number [.definition .definitions "Cat"])]⟩ := by
  decide +kernel

theorem slashedChoice_unnamed :
    ∃ root, parseJson slashedChoiceText = .ok root ∧
      root.discriminator = some (.object ⟨"kind", []⟩) ∧
      root.choiceTargets = ["#/definitions/Cat/"] ∧
      root.Declares "#/definitions/Cat/" ("Cat", root.number [.definition .definitions "Cat"]) ∧
      ∃ d, ofKeywords root = .ok d ∧
        (d.graph.node d.root).discriminator =
          some ⟨"kind", [("", root.number [.definition .definitions "Cat"])]⟩ := by
  obtain ⟨root, hroot, hform, htargets, hdefined, hd⟩ := slashedChoice_load
  obtain ⟨t, ht⟩ := Option.isSome_iff_exists.mp hdefined
  have hcat (id : SchemaId) (hid : id = root.number [.definition .definitions "Cat"]) :
      root.Declares "#/definitions/Cat/" ("Cat", id) :=
    ⟨_, ⟨⟨t, Schema.at_of_get? ht⟩, rfl⟩, by simp, ⟨1, by decide⟩, hid⟩
  exact ⟨root, hroot, hform, htargets, hcat _ rfl, hd⟩

end Document

end SchemaTypes
