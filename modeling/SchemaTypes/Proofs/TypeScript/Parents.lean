import SchemaTypes.Proofs.TypeScript.Compositions
import SchemaTypes.Proofs.TypeScript.Definitions
import SchemaTypes.Proofs.TypeScript.Interfaces

/-! What an interface extends. Its parents are what the references of its `allOf` lead to, and how
these are declared is not looked at. -/

namespace SchemaTypes

open Session

/-- A schema for primitive values only. -/
def Node.isScalar (node : Node) : Bool := !node.hasNoType && !node.isObject && !node.isArray

/-- An interface can extend another one, unless that stands for primitive values, and a type that
stands for a list, for a dictionary or for any value. -/
def Shape.Extendable (node : Node) : Shape → Prop
  | interface _ _ _ => node.isScalar = false
  | synonym _ => node.isArray ∨ node.isDictionary ∨ node.isAny
  | union _ | enumeration _ => False

lemma Node.isScalar_of_synonym {node : Node}
    (h : node.isArray ∨ node.isDictionary ∨ node.isAny) : node.isScalar = false := by
  have hother : node.hasNoType ∨ node.isObject ∨ node.isArray := by
    rcases h with h | h | h
    · exact .inr (.inr h)
    · simp only [isDictionary, Bool.and_eq_true] at h
      exact .inr (.inl h.1.1)
    · simp only [isAny, Bool.and_eq_true, Bool.or_eq_true, and_assoc] at h
      exact h.1.imp_right .inl
  rw [isScalar]
  rcases hother with h | h | h <;> simp [h]

namespace SessionM

variable {env : Environment} {s t : Session} {g : Graph} {id : SchemaId}

lemma declare_extendable {name : String} {decl : Declaration} (hwrapped : s.wrapped? id = none)
    (h : declare id name env s = (.ok decl, t)) :
    decl.shape.Extendable (s.graph.node id) ↔
      (s.graph.node id).enumeration = [] ∧ (s.graph.node id).isScalar = false := by
  rw [declare, bind_ok get_apply] at h
  simp only [hwrapped] at h
  split at h
  case isTrue hchoice =>
    obtain ⟨_, _, hshape⟩ := declareChoice_shape h
    have hmembers : (s.graph.node id).enumeration ≠ [] := fun hnil => by simp [hnil] at hchoice
    simp [hshape, Shape.Extendable, hmembers]
  case isFalse =>
    split at h
    case isTrue hmembers =>
      cases h
      rw [Node.isEnumeration] at hmembers
      simp_all [Shape.Extendable]
    case isFalse hmembers =>
      have hnil : (s.graph.node id).enumeration = [] := by simpa [Node.isEnumeration] using hmembers
      split at h
      case isTrue hcontainer =>
        obtain ⟨e, u, _, hpure⟩ := bind_eq_ok h
        cases hpure
        rw [Bool.or_eq_true] at hcontainer
        have hsynonym := hcontainer.imp_right (Or.inl (b := (s.graph.node id).isAny))
        simp [Shape.Extendable, hnil, hsynonym, Node.isScalar_of_synonym hsynonym]
      case isFalse =>
        split at h
        case isTrue hany =>
          cases h
          simp [Shape.Extendable, hnil, hany, Node.isScalar_of_synonym (.inr (.inr hany))]
        case isFalse =>
          obtain ⟨_, _, _, _, hshape⟩ := (declareInterface_shape id name).result h
          simp [hshape, Shape.Extendable, hnil]

lemma declared_parents (hone : ∀ id, (g.node id).reference.isSome → (g.node id).oneOf = [])
    (hclosed : g.Closed) (hrun : Run env { graph := g } s) {name : String} {decl : Declaration}
    {parents : List String} {fields : List Field} {indexed : Bool}
    (h : declare id name env s = (.ok decl, t))
    (hshape : decl.shape = .interface parents fields indexed) :
    ∀ parent ∈ parents, ∃ part ∈ (g.node id).allOf,
      g.isReference part ∧ g.Named t part parent := by
  have hlt := declare_interface_lt (hrun.extends (.start hclosed)) h hshape
  obtain ⟨_, _, hinterface⟩ := declare_interface h hshape
  obtain ⟨_, _, _, _, hshape', hmerges⟩ :=
    (declareInterface_merges hone hrun (hrun.parts_kept hlt) _).result hinterface
  rw [hshape] at hshape'
  cases hshape'
  intro parent hparent
  obtain ⟨_, rfl, hpart⟩ := hmerges.parent parent hparent
  exact hpart

end SessionM

namespace Session

variable {env : Environment} {s : Session} {g : Graph} {id : SchemaId}

/-- A schema has members if the document gives it some, or if it was prepared and has several
alternatives. -/
lemma Run.members_eq_nil (hrun : Run env { graph := g } s) (hclosed : g.Closed)
    {rank : SchemaId → ℕ} (hrank : g.Ranked rank) :
    (s.graph.node id).enumeration = [] ↔ (g.node id).enumeration = [] ∧
      ¬ (id ∈ s.prepared ∧ (g.node id).hasNoType ∧ 1 < (g.solidAlternatives id).length) := by
  by_cases hchoice :
      id ∈ s.prepared ∧ (g.node id).hasNoType ∧ 1 < (g.solidAlternatives id).length
  · obtain ⟨hprepared, hno, hsolid⟩ := hchoice
    have hne : (g.node id).alternativeMembers ≠ [] :=
      mt List.map_eq_nil_iff.mp (Graph.oneOf_ne_nil_of_solid hsolid)
    rw [hrun.members_of_prepared hclosed hrank hprepared hno hsolid]
    simp [hne, hprepared, hno, hsolid]
  · obtain ⟨_, hreshapes⟩ := hrun.reshapes hclosed hrank
    have hkept := (hreshapes.members id).resolve_right fun h => hchoice ⟨h.1, h.2.1, h.2.2.1⟩
    rw [hkept, and_iff_left hchoice]

end Session

namespace Document

open SessionM

variable {text : String} {d : Document} {env : Environment} {s : Session}

/-- The parents of an interface are declared in the same file. One can be extended exactly if what
the reference leads to is no enumeration, was not prepared as a choice of several alternatives, and
is no schema for primitive values. -/
theorem parents_extendable_iff (hload : ofJson text = .ok d ∨ ofYaml text = .ok d)
    {files : List GeneratedFile} (hemit : d.emit env { graph := d.graph } = (.ok files, s)) :
    ∃ ds, files = [⟨"types.ts", fileText env.typescript.exported ds⟩] ∧
      List.Forall₂ (fun entry decl => decl.name = entry.2 ∧
        ∀ parents fields indexed, decl.shape = .interface parents fields indexed →
          ∀ name ∈ parents, ∃ part ∈ (d.graph.node entry.1).allOf, ∃ target,
            d.graph.isReference part ∧ d.graph.RefersTo part target ∧
            s.nameOf? target = some name ∧
            ∃ parent ∈ ds, parent.name = name ∧
              ∃ u v, Run env (d.registered env) u ∧
                SessionM.declare target name env u = (.ok parent, v) ∧ Run env v s ∧
                (parent.shape.Extendable (u.graph.node target) ↔
                  (d.graph.node target).enumeration = [] ∧
                  ¬ (target ∈ u.prepared ∧ (d.graph.node target).hasNoType ∧
                    1 < (d.graph.solidAlternatives target).length) ∧
                  (d.graph.node target).isScalar = false))
        s.types ds := by
  obtain ⟨root, hrepresents⟩ := represents_of_load hload
  obtain ⟨rank, hrank⟩ := hrepresents.exists_ranked
  have hclosed := hrepresents.closed
  have hone := oneOf_of_reference hload
  obtain ⟨_, ds, hfiles, hdeclared⟩ := d.emit_between.result hemit
  have hregister : Run env { graph := d.graph } (d.registered env) := d.register_leads.1
  refine ⟨ds, hfiles, hdeclared.imp fun entry decl hdecl => ?_⟩
  obtain ⟨u, v, hu, hdeclare, hv⟩ := hdecl
  refine ⟨((declare_declares entry.1 entry.2).result hdeclare).2.1,
    fun parents fields indexed hshape name hname => ?_⟩
  obtain ⟨part, hpart, href, target, hrefers, hnamed⟩ :=
    declared_parents hone hclosed (hregister.trans hu) hdeclare hshape name hname
  have hnamed : s.nameOf? target = some name := hv.nameOf? hnamed
  refine ⟨part, hpart, target, href, hrefers, hnamed, ?_⟩
  obtain ⟨_, hnamed', parent, hmem, heq, u', v', hu', hparent, hv'⟩ :=
    declares_of_named hdeclared hnamed
  cases hnamed.symm.trans hnamed'
  refine ⟨parent, hmem, heq, u', v', hu', hparent, hv', ?_⟩
  have hrun : Run env { graph := d.graph } u' := hregister.trans hu'
  have hlt : target < d.graph.size := by
    obtain ⟨steps, _, rfl⟩ := hrefers
    exact hclosed.follow_lt ((hclosed entry.1).allOf part hpart) steps
  have hwrapped := (hrun.extends (.start hclosed)).wrapped?_eq_none hlt
  have htypes := (hrun.grows target).types
  rw [declare_extendable hwrapped hparent, hrun.members_eq_nil hclosed hrank, and_assoc]
  simp only [Node.isScalar, Node.hasNoType, Node.isObject, Node.isArray, Node.hasType, htypes]

/-- The root extends another object. -/
def extendedText : String :=
  "\x7b\"$defs\":\x7b\"B\":\x7b\"type\":\"object\"," ++
    "\"properties\":\x7b\"b\":\x7b\x7d\x7d\x7d\x7d," ++
    "\"type\":\"object\",\"allOf\":[\x7b\"$ref\":\"#/$defs/B\"\x7d]," ++
    "\"properties\":\x7b\"c\":\x7b\x7d\x7d\x7d"

def extendedFile : String :=
  "// Generated by jstr. Do not edit.\n\nexport interface B \x7b\n  b?: any;\n\x7d\n\n" ++
    "export interface Root extends B \x7b\n  c?: any;\n\x7d\n"

lemma extended_emits :
    ∃ d, ofJson extendedText = .ok d ∧
      (∃ files, (d.emit (.ofSettings {}) { graph := d.graph }).1 = .ok files ∧
        files.map (·.content) = [extendedFile]) ∧
      ∀ id < d.graph.size, (d.graph.node id).enumeration = [] ∧
        (d.graph.solidAlternatives id).length ≤ 1 ∧ (d.graph.node id).isScalar = false := by
  decide +kernel

theorem extended_parents :
    ∃ d files s, ofJson extendedText = .ok d ∧
      d.emit (.ofSettings {}) { graph := d.graph } = (.ok files, s) ∧
      files.map (·.content) = [extendedFile] ∧
      ∃ ds, files = [⟨"types.ts", fileText true ds⟩] ∧
        List.Forall₂ (fun _ decl => ∀ parents fields indexed,
          decl.shape = .interface parents fields indexed → ∀ name ∈ parents,
            ∃ parent ∈ ds, parent.name = name ∧ ∃ node, parent.shape.Extendable node)
          s.types ds := by
  obtain ⟨d, hload, ⟨files, hfiles, hcontent⟩, hplain⟩ := extended_emits
  refine ⟨d, files, _, hload, Prod.ext hfiles rfl, hcontent, ?_⟩
  obtain ⟨ds, hds, hdeclared⟩ := parents_extendable_iff (.inl hload) (Prod.ext hfiles rfl)
  refine ⟨ds, hds, hdeclared.imp ?_⟩
  intro entry decl hdecl parents fields indexed hshape name hname
  obtain ⟨_, _, target, _, _, _, parent, hmem, heq, u, _, _, _, _, hiff⟩ :=
    hdecl.2 parents fields indexed hshape name hname
  refine ⟨parent, hmem, heq, u.graph.node target, hiff.mpr ?_⟩
  by_cases hlt : target < d.graph.size
  · obtain ⟨hmembers, hfew, hscalar⟩ := hplain target hlt
    exact ⟨hmembers, fun hchoice => absurd hchoice.2.2 (Nat.not_lt_of_le hfew), hscalar⟩
  · have hnode := Graph.node_of_size_le (Nat.le_of_not_lt hlt)
    rw [Graph.solidAlternatives_of_oneOf (by rw [hnode]), hnode]
    exact ⟨rfl, by simp, by decide⟩

/-- The root composes an enumeration, a choice and texts. -/
def unextendableText : String :=
  "\x7b\"$defs\":\x7b\"E\":\x7b\"enum\":[\"a\"]\x7d," ++
    "\"U\":\x7b\"oneOf\":[\x7b\"$ref\":\"#/$defs/A\"\x7d,\x7b\"$ref\":\"#/$defs/B\"\x7d]\x7d," ++
    "\"A\":\x7b\"properties\":\x7b\"a\":\x7b\x7d\x7d\x7d," ++
    "\"B\":\x7b\"properties\":\x7b\"b\":\x7b\x7d\x7d\x7d,\"P\":\x7b\"type\":\"string\"\x7d\x7d," ++
    "\"allOf\":[\x7b\"$ref\":\"#/$defs/E\"\x7d,\x7b\"$ref\":\"#/$defs/U\"\x7d," ++
    "\x7b\"$ref\":\"#/$defs/P\"\x7d]\x7d"

/-- It extends them all, and the texts as an interface. -/
theorem unextendable_extended :
    ∃ d, ofJson unextendableText = .ok d ∧
      (d.emit (.ofSettings {}) { graph := d.graph }).2.nameOf? 5 = some "Anonymous" ∧
      (d.graph.node 5).isScalar ∧
      ∃ files, (d.emit (.ofSettings {}) { graph := d.graph }).1 = .ok files ∧
        files.map (·.content) = [fileText true [
          ⟨"E", none, .enumeration [.string "a"]⟩,
          ⟨"U", none, .union [.ident "A", .ident "B"]⟩,
          ⟨"A", none, .interface [] [⟨"a", true, .expr .any, none⟩] false⟩,
          ⟨"B", none, .interface [] [⟨"b", true, .expr .any, none⟩] false⟩,
          ⟨"Root", none, .interface ["E", "U", "Anonymous"] [] false⟩,
          ⟨"Anonymous", none, .interface [] [] false⟩]] := by
  decide +kernel

end Document

end SchemaTypes
