import SchemaTypes.Proofs.TypeScript.Lockstep
import SchemaTypes.Proofs.TypeScript.Termination

/-! What a generator decides. One that always has a free name decides about the names and about
nothing else: with another such generator the same types are declared in the same order. -/

namespace SchemaTypes

open Session SessionM

/-- On every call the generator has an identifier that is not taken and that is no keyword. -/
def NameGenerator.Fresh (generator : NameGenerator) : Prop :=
  ∀ request, ∃ name, generator request = .ok name ∧ Text.isIdentifier name ∧
    name ∉ request.taken ∧ name ∉ TypeExpr.keywords

namespace Session

variable {env env' : Environment} {s t : Session} {id : SchemaId}

/-- The second session is the first one under other names, and none of the names is a keyword. -/
structure Disguises (s t : Session) : Prop where
  graph : t.graph = s.graph
  prepared : t.prepared = s.prepared
  wrappers : t.wrappers = s.wrappers
  registering : t.registering = s.registering
  expanding : t.expanding = s.expanding
  schemas : t.types.map (·.1) = s.types.map (·.1)
  apart : s.NamesApart
  apart' : t.NamesApart
  plain : ∀ name ∈ s.names, name ∉ TypeExpr.keywords
  plain' : ∀ name ∈ t.names, name ∉ TypeExpr.keywords

lemma Disguises.start (g : Graph) : Disguises { graph := g } { graph := g } :=
  ⟨rfl, rfl, rfl, rfl, rfl, rfl, .start g, .start g, by simp [names], by simp [names]⟩

lemma Disguises.translate (h : s.Disguises t) {name : String} (hname : name ∈ s.names) :
    ∃ id, s.nameOf? id = some name ∧ t.nameOf? id = some (s.translate t name) := by
  obtain ⟨entry, hentry, rfl⟩ := List.mem_map.mp hname
  have hid : entry.1 ∈ t.types.map (·.1) := h.schemas ▸ List.mem_map_of_mem hentry
  have hfirst : s.nameOf? entry.1 = some entry.2 :=
    Entries.lookup_of_mem h.apart.schemas_nodup hentry
  cases hsecond : t.nameOf? entry.1 with
  | none => exact absurd hid (nameOf?_eq_none.mp hsecond)
  | some name' => exact ⟨entry.1, hfirst, by rw [h.apart.translate hfirst hsecond, hsecond]⟩

lemma Disguises.mirrors (h : s.Disguises t) : s.Mirrors t where
  graph := h.graph
  prepared := h.prepared
  wrappers := h.wrappers
  registering := h.registering
  expanding := h.expanding
  schemas := h.schemas
  apart := h.apart
  keyword name hname := translate_of_not_mem fun hmem => h.plain name hmem hname
  injective := by
    have hkeyword {a b : String} (ha : a ∈ TypeExpr.keywords) (hb : b ∈ s.names) :
        s.translate t a ≠ s.translate t b := by
      obtain ⟨id, _, hid⟩ := h.translate hb
      rw [translate_of_not_mem fun hmem => h.plain a hmem ha]
      exact fun heq => h.plain' _ (mem_names hid) (heq ▸ ha)
    rintro a (ha | ha) b (hb | hb) heq
    · rwa [translate_of_not_mem fun hmem => h.plain a hmem ha,
        translate_of_not_mem fun hmem => h.plain b hmem hb] at heq
    · exact absurd heq (hkeyword ha hb)
    · exact absurd heq.symm (hkeyword hb ha)
    · obtain ⟨id, hid, hid'⟩ := h.translate ha
      obtain ⟨other, hother, hother'⟩ := h.translate hb
      -- The second session has one name for both, so that it stands for one schema.
      rw [heq] at hid'
      rw [h.apart'.nameOf?_inj hid' hother', hother] at hid
      exact (Option.some.inj hid).symm

lemma Disguises.prepare (h : s.Disguises t) (id : SchemaId) :
    (s.prepare id).2.Disguises (t.prepare id).2 := by
  have hsame := prepare_congr h.graph h.prepared h.wrappers id
  have hkept {β : Type} (p : Session → β)
      (hp : ∀ (s : Session) graph prepared wrappers remappings,
        p { s with graph, prepared, wrappers, remappings } = p s) (heq : p t = p s) :
      p (t.prepare id).2 = p (s.prepare id).2 := by
    rw [prepare_keeps p hp, prepare_keeps p hp, heq]
  have htypes := prepare_types s id
  have htypes' := prepare_types t id
  constructor
  case graph => exact hsame.2.1
  case prepared => exact hsame.2.2.1
  case wrappers => exact hsame.2.2.2
  case registering => exact hkept Session.registering (fun _ _ _ _ _ => rfl) h.registering
  case expanding => exact hkept Session.expanding (fun _ _ _ _ _ => rfl) h.expanding
  case schemas => rw [htypes, htypes', h.schemas]
  case apart => exact h.apart.congr htypes (prepare_taken s id)
  case apart' => exact h.apart'.congr htypes' (prepare_taken t id)
  case plain => simpa only [names, htypes] using h.plain
  case plain' => simpa only [names, htypes'] using h.plain'

lemma mem_names_give {name other : String} (h : other ∈ (s.give id name).names) :
    other ∈ s.names ∨ other = name := by
  simpa [names, give] using h

end Session

lemma NameGenerator.Fresh.assign {env : Environment} (hfresh : env.generator.Fresh) {s : Session}
    {id : SchemaId} (h : s.nameOf? id = none) (hint : Option String) :
    ∃ name, SessionM.assign id hint env s =
        (.ok name, ({ s with requests := s.requests + 1 } : Session).give id name) ∧
      Session.Run env s (({ s with requests := s.requests + 1 } : Session).give id name) ∧
      name ∉ TypeExpr.keywords := by
  obtain ⟨name, hname, hvalid, hfree, hplain⟩ := hfresh (s.request id hint)
  rcases assign_unnamed h hint with ⟨e, _, hrefused⟩ | ⟨name', heq, hname', valid, free⟩
  · rcases hrefused name hname with hinvalid | htaken
    · simp [hvalid] at hinvalid
    · exact absurd htaken hfree
  · rw [hname] at hname'
    cases hname'
    exact ⟨name, heq, .single (.name id hint name h hname valid free), hplain⟩

/-- With generators that always have a free name nothing fails for a name. -/
def Bond.fresh {env env' : Environment} (hresolver : env'.resolver = env.resolver)
    (htypescript : env'.typescript = env.typescript) (hfresh : env.generator.Fresh)
    (hfresh' : env'.generator.Fresh) : Bond env env' where
  related := Disguises
  fails e := e = .exhausted
  defined _ := True
  resolver := hresolver
  typescript := htypescript
  exhausted := rfl
  mirrors h := h.mirrors
  definitions _ _ _ _ := trivial
  beginRegistration id h _ := { h with
    registering := congrArg (id :: ·) h.registering
    apart := h.apart.congr rfl rfl
    apart' := h.apart'.congr rfl rfl }
  endRegistration id h := { h with
    registering := congrArg (·.erase id) h.registering
    apart := h.apart.congr rfl rfl
    apart' := h.apart'.congr rfl rfl }
  beginExpansion id hint h := { h with
    expanding := congrArg ((id, hint) :: ·) h.expanding
    apart := h.apart.congr rfl rfl
    apart' := h.apart'.congr rfl rfl }
  endExpansion id h := { h with
    expanding := congrArg (·.filter (·.1 != id)) h.expanding
    apart := h.apart.congr rfl rfl
    apart' := h.apart'.congr rfl rfl }
  prepare h _ _ := h.prepare _
  assign {s t id} hint h hname := by
    obtain ⟨name, heq, hrun, hplain⟩ := hfresh.assign hname hint
    obtain ⟨name', heq', hrun', hplain'⟩ :=
      hfresh'.assign (h.mirrors.nameOf?_eq_none.mpr hname) hint
    refine ⟨by rwa [heq], by rwa [heq'], ?_, by rw [heq, heq']; trivial⟩
    rw [heq, heq']
    refine { h with schemas := ?_, apart := ?_, apart' := ?_, plain := ?_, plain' := ?_ }
    · simp [give, h.schemas]
    · exact hrun.namesApart h.apart
    · exact hrun'.namesApart h.apart'
    · intro other hother
      rcases mem_names_give hother with hother | rfl
      · exact h.plain other hother
      · exact hplain
    · intro other hother
      rcases mem_names_give hother with hother | rfl
      · exact h.plain' other hother
      · exact hplain'

namespace Document

variable {text : String} {d : Document} {env env' : Environment}

lemma register_inStep {b : Bond env env'} {s t : Session} (hR : b.related s t)
    (hdefined : ∀ entry ∈ d.definitions, b.defined entry.2) :
    b.InStep s t d.register d.register fun _ _ _ _ => True := by
  refine (Bond.register_inStep hR hdefined).bind fun _ _ s' t' _ _ hR' _ => ?_
  refine Bond.isDefinitionType hR' (Bond.graph hR' ?_)
  split
  · refine .look read_apply read_apply ?_
    rw [b.typescript]
    exact (Bond.typeName_returns _ _ hR').discard
  · exact .pure hR' trivial

/-- Registers the types of the document, names the root if it is one, and declares them all. -/
def declare (d : Document) : SessionM (List Declaration) := do
  d.register
  SessionM.declarations

lemma declare_ends (hload : ofJson text = .ok d ∨ ofYaml text = .ok d) :
    Ends env { graph := d.graph } d.declare := by
  obtain ⟨root, hrepresents⟩ := represents_of_load hload
  obtain ⟨rank, hrank⟩ := hrepresents.exists_ranked
  have hclosed := hrepresents.closed
  have hstart : ({ graph := d.graph } : Session).Idle d.graph := .start hclosed
  have hroot : d.root < d.graph.size := by
    rw [hrepresents.root_eq]
    exact hrepresents.size_pos
  refine (register_ends hstart.ready.extends_graph hroot hclosed).bind fun _ t _ hbalanced => ?_
  have ht := hstart.after hbalanced
  exact declarations_ends hrank ht.ready ht.apart ht.named

lemma emit_of_declare {ds : List Declaration} {s t : Session}
    (h : d.declare env s = (.ok ds, t)) :
    d.emit env s = (.ok [⟨"types.ts", fileText env.typescript.exported ds⟩], t) := by
  obtain ⟨_, u, hregister, hdeclarations⟩ := bind_eq_ok h
  have hemit : SessionM.emit env u = (.ok (fileText env.typescript.exported ds), t) := by
    rw [SessionM.emit, bind_ok read_apply, bind_ok hdeclarations, pure_apply]
  rw [emit, bind_ok hregister, bind_ok hemit, pure_apply]

/-- Two generators that always have a free name lead to the same types in the same order, to the
same graph and wrappers, and to declarations that differ in the names only. -/
theorem names_only (hload : ofJson text = .ok d ∨ ofYaml text = .ok d)
    (hresolver : env'.resolver = env.resolver) (htypescript : env'.typescript = env.typescript)
    (hfresh : env.generator.Fresh) (hfresh' : env'.generator.Fresh) :
    ∃ ds s t, d.declare env { graph := d.graph } = (.ok ds, s) ∧
      d.declare env' { graph := d.graph } =
        (.ok (ds.map (Declaration.rename (s.translate t))), t) ∧
      (∀ id name name', s.nameOf? id = some name → t.nameOf? id = some name' →
        s.translate t name = name') ∧
      (∀ name, name ∉ s.names → s.translate t name = name) ∧
      t.types.map (·.1) = s.types.map (·.1) ∧ t.graph = s.graph ∧ t.wrappers = s.wrappers ∧
      d.emit env { graph := d.graph } =
        (.ok [⟨"types.ts", fileText env.typescript.exported ds⟩], s) ∧
      d.emit env' { graph := d.graph } = (.ok [⟨"types.ts", fileText env.typescript.exported
        (ds.map (Declaration.rename (s.translate t)))⟩], t) := by
  let b : Bond env env' := .fresh hresolver htypescript hfresh hfresh'
  have hstart : b.related { graph := d.graph } { graph := d.graph } := Disguises.start d.graph
  have hreturns : b.Returns { graph := d.graph } { graph := d.graph } d.declare d.declare :=
    (register_inStep hstart fun _ _ => trivial).bind fun _ _ _ _ _ _ hR _ =>
      Bond.declarations_returns hR
  rcases hreturns.cases with ⟨ds, ds', s, t, hfirst, hsecond, _, _, hR, _, rfl⟩ |
    ⟨e, s, t, hfirst, _, _, _, _, hfails⟩
  · have hdisguises : s.Disguises t := hR
    refine ⟨ds, s, t, hfirst, hsecond, fun id name name' => hdisguises.apart.translate,
      fun name => translate_of_not_mem, hdisguises.schemas, hdisguises.graph, hdisguises.wrappers,
      emit_of_declare hfirst, ?_⟩
    rw [← htypescript]
    exact emit_of_declare hsecond
  · -- Names do not fail here, and the bounds are large enough.
    have hends : Ends env { graph := d.graph } d.declare := declare_ends hload
    have hexhausted : e = .exhausted := hfails
    exact absurd (by rw [hfirst, hexhausted]) hends.2

/-- Names of one letter, each longer than all that are taken. -/
def repeated (letter : Char) : NameGenerator := fun request =>
  .ok (String.ofList (List.replicate ((request.taken.map String.toList).flatten.length + 1) letter))

def lettered (letter : Char) : Environment := ⟨{}, {}, repeated letter⟩

lemma repeated_fresh {letter : Char} (hstart : Text.isIdentifierStart letter)
    (hpart : Text.isIdentifierPart letter)
    (hplain : ∀ name ∈ TypeExpr.keywords, name.toList.head? ≠ some letter) :
    (repeated letter).Fresh := by
  intro request
  refine ⟨_, rfl, ?_, fun htaken => ?_, fun hkeyword => hplain _ hkeyword ?_⟩
  · simp [Text.isIdentifier, List.replicate_succ, hstart, hpart]
  · have hsublist := List.sublist_flatten_of_mem (List.mem_map_of_mem (f := String.toList) htaken)
    have hlength := hsublist.length_le
    rw [String.toList_ofList, List.length_replicate] at hlength
    omega
  · simp [List.replicate_succ]

theorem nested_names_only :
    ∃ d, ofJson nestedText = .ok d ∧ (lettered '$').resolver = (lettered '_').resolver ∧
      (lettered '$').typescript = (lettered '_').typescript ∧ (lettered '_').generator.Fresh ∧
      (lettered '$').generator.Fresh ∧
      ∃ ds s t,
        d.declare (lettered '_') { graph := d.graph } = (.ok ds, s) ∧
        d.declare (lettered '$') { graph := d.graph } =
          (.ok (ds.map (Declaration.rename (s.translate t))), t) ∧
        t.types.map (·.1) = s.types.map (·.1) ∧ t.graph = s.graph ∧ t.wrappers = s.wrappers := by
  obtain ⟨d, hload, _⟩ := nested_load
  have hfirst : (lettered '_').generator.Fresh :=
    repeated_fresh (by simp [Text.isIdentifierStart]) (by simp [Text.isIdentifierPart]) (by decide)
  have hsecond : (lettered '$').generator.Fresh :=
    repeated_fresh (by simp [Text.isIdentifierStart]) (by simp [Text.isIdentifierPart]) (by decide)
  obtain ⟨ds, s, t, hds, hds', _, _, hschemas, hgraph, hwrappers, _⟩ :=
    names_only (.inl hload) (by rfl) (by rfl) hfirst hsecond
  exact ⟨d, hload, rfl, rfl, hfirst, hsecond, ds, s, t, hds, hds', hschemas, hgraph, hwrappers⟩

end Document

end SchemaTypes
