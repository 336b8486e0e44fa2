import SchemaTypes.Proofs.Graph.Following
import SchemaTypes.Proofs.Session.Effects
import SchemaTypes.Proofs.TypeScript.Lockstep

/-! All that a session changes about the graph of a document. Only what some definition leads to is
prepared; for that, a session is put in step with itself. -/

namespace SchemaTypes

open Session SessionM

namespace Session

variable {env : Environment} {s t : Session} {g : Graph} {id wrapper : SchemaId}
  {defined : SchemaId → Prop}

lemma NamesApart.translate_self (hs : s.NamesApart) (name : String) :
    s.translate s name = name := by
  by_cases hname : name ∈ s.names
  · obtain ⟨entry, hentry, rfl⟩ := List.mem_map.mp hname
    have hid : s.nameOf? entry.1 = some entry.2 :=
      Entries.lookup_of_mem hs.schemas_nodup hentry
    exact hs.translate hid hid
  · exact translate_of_not_mem hname

lemma NamesApart.mirrors (hs : s.NamesApart) : s.Mirrors s where
  graph := rfl
  prepared := rfl
  wrappers := rfl
  registering := rfl
  expanding := rfl
  schemas := rfl
  apart := hs
  keyword name _ := hs.translate_self name
  injective a _ b _ h := by rwa [hs.translate_self, hs.translate_self] at h

/-- A session that grew out of the graph. What is prepared was reached from a definition. -/
structure Traced (env : Environment) (g : Graph) (defined : SchemaId → Prop) (s : Session) :
    Prop where
  run : Run env { graph := g } s
  prepared : ∀ id ∈ s.prepared, ∃ definition steps, defined definition ∧
    id = g.follow steps definition

lemma Traced.start (env : Environment) (g : Graph) (defined : SchemaId → Prop) :
    Traced env g defined { graph := g } :=
  ⟨.refl, by simp⟩

lemma Traced.after (hs : Traced env g defined s) (h : Run env s t)
    (hprepared : t.prepared = s.prepared) : Traced env g defined t :=
  ⟨hs.run.trans h, by rw [hprepared]; exact hs.prepared⟩

lemma Traced.prepare (hs : Traced env g defined s) {definition : SchemaId}
    (hdefined : defined definition)
    (hdef : s.graph.isDefinitionType env.resolver.inlineNamedAny (s.graph.actual definition)) :
    Traced env g defined (s.prepare (s.graph.actual definition)).2 := by
  refine ⟨hs.run.tail (.prepare _ hdef), fun id hid => ?_⟩
  rcases mem_prepared_of_prepare hid with rfl | hid
  · exact ⟨definition, s.graph.size, hdefined, hs.run.grows.follow _ _⟩
  · exact hs.prepared id hid

end Session

/-- A session in step with itself. -/
def Bond.diagonal (env : Environment) (g : Graph) (defined : SchemaId → Prop)
    (hdefinitions : ∀ owner, ∀ entry ∈ (g.node owner).definitions, defined entry.2) :
    Bond env env where
  related s t := t = s ∧ Traced env g defined s
  fails _ := True
  defined := defined
  resolver := rfl
  typescript := rfl
  exhausted := trivial
  mirrors := by
    rintro _ s ⟨rfl, hs⟩
    exact (hs.run.namesApart (.start g)).mirrors
  definitions := by
    rintro _ s ⟨rfl, hs⟩ owner entry hentry
    rw [(hs.run.grows owner).definitions] at hentry
    exact hdefinitions owner entry hentry
  beginRegistration := by
    rintro _ s id ⟨rfl, hs⟩ hnot
    exact ⟨rfl, hs.after (.single (.beginRegistration id hnot)) rfl⟩
  endRegistration := by
    rintro _ s id ⟨rfl, hs⟩
    exact ⟨rfl, hs.after (.single (.endRegistration id)) rfl⟩
  beginExpansion := by
    rintro _ s id hint ⟨rfl, hs⟩
    exact ⟨rfl, hs.after (.single (.beginExpansion id hint)) rfl⟩
  endExpansion := by
    rintro _ s id ⟨rfl, hs⟩
    exact ⟨rfl, hs.after (.single (.endExpansion id)) rfl⟩
  prepare := by
    rintro _ s definition ⟨rfl, hs⟩ hdefined hdef
    exact ⟨rfl, hs.prepare hdefined hdef⟩
  assign := by
    rintro _ s id hint ⟨rfl, hs⟩ hname
    have hrun : Run env s (SessionM.assign id hint env s).2 := (assign_leads id hint).1
    have hprepared : (SessionM.assign id hint env s).2.prepared = s.prepared :=
      assign_keeps Session.prepared (fun _ _ _ _ => rfl) id hint
    refine ⟨hrun, hrun, ⟨rfl, hs.after hrun hprepared⟩, ?_⟩
    rcases SessionM.assign id hint env s with ⟨e | name, _⟩
    · exact ⟨rfl, trivial⟩
    · trivial

/-- The schema that a definition of the document, or one that is registered, leads to. -/
def Document.Defines (d : Document) (calls : List Call) (definition : SchemaId) : Prop :=
  (∃ owner, ∃ entry ∈ (d.graph.node owner).definitions, entry.2 = definition) ∨
    ∃ definitions, .register definitions ∈ calls ∧ ∃ entry ∈ definitions, entry.2 = definition

namespace Session

variable {env : Environment} {s : Session} {g : Graph} {id wrapper : SchemaId}

lemma Traced.calls {defined : SchemaId → Prop}
    (hdefinitions : ∀ owner, ∀ entry ∈ (g.node owner).definitions, defined entry.2)
    {calls : List Call} (hcalls : ∀ definitions, .register definitions ∈ calls →
      ∀ entry ∈ definitions, defined entry.2)
    (hs : Traced env g defined s) : Traced env g defined (s.after env calls) := by
  induction calls generalizing s with
  | nil => exact hs
  | cons call rest ih =>
    let b : Bond env env := .diagonal env g defined hdefinitions
    have hR : b.related s s := ⟨rfl, hs⟩
    have hcall : b.InStep s s call.run call.run fun _ _ _ _ => True := by
      refine Bond.call_inStep call hR fun definitions heq => hcalls definitions ?_
      rw [heq]
      exact List.mem_cons_self
    have hnext : Traced env g defined (call.run env s).2 := hcall.related.2
    exact ih (fun definitions hmem => hcalls definitions (List.mem_cons_of_mem _ hmem)) hnext

lemma Extends.wrapped?_eq_some (hs : Extends g s) :
    s.wrapped? wrapper = some id ↔ (id, wrapper) ∈ s.wrappers := by
  have hnodup : (s.wrappers.map (·.2)).Nodup := by
    rw [hs.numbers]
    exact List.nodup_range'
  rw [wrapped?, Option.map_eq_some_iff]
  constructor
  · rintro ⟨entry, hfind, rfl⟩
    have heq : entry.2 = wrapper := by simpa using List.find?_some hfind
    exact heq ▸ List.mem_of_find?_eq_some hfind
  · intro hmem
    have hsome : (s.wrappers.find? (·.2 == wrapper)).isSome :=
      List.find?_isSome.mpr ⟨_, hmem, BEq.rfl⟩
    obtain ⟨entry, hfind⟩ := Option.isSome_iff_exists.mp hsome
    have heq : entry.2 = wrapper := by simpa using List.find?_some hfind
    have hsame := List.inj_on_of_nodup_map hnodup (List.mem_of_find?_eq_some hfind) hmem heq
    exact ⟨entry, hfind, by rw [hsame]⟩

lemma Extends.mem_wrappers_iff (hs : Extends g s) :
    (∃ id, s.wrapper? id = some wrapper) ↔ g.size ≤ wrapper ∧ wrapper < s.graph.size := by
  have hmem : wrapper ∈ s.wrappers.map (·.2) ↔ g.size ≤ wrapper ∧ wrapper < s.graph.size := by
    rw [hs.numbers, List.mem_range'_1, hs.size]
  rw [← hmem, List.mem_map]
  constructor
  · rintro ⟨id, hid⟩
    exact ⟨_, hs.wrapper?_eq_some.mp hid, rfl⟩
  · rintro ⟨entry, hentry, rfl⟩
    exact ⟨entry.1, hs.wrapper?_eq_some.mpr hentry⟩

end Session

namespace Document

variable {text : String} {d : Document} {env : Environment}

/-- All that the session has changed about the graph of the document. -/
structure Changes (d : Document) (calls : List Call) (s : Session) : Prop where
  nodes : ∀ id < d.graph.size, ∃ enumeration discriminator,
    s.graph.node id = { d.graph.node id with enumeration, discriminator }
  /-- Members are added once, for the alternatives of a schema that a definition leads to. -/
  members : ∀ id < d.graph.size, (s.graph.node id).enumeration = (d.graph.node id).enumeration ∨
    (s.graph.node id).enumeration =
        (d.graph.node id).enumeration ++ (d.graph.node id).alternativeMembers ∧
      (d.graph.node id).hasNoType ∧ 1 < (d.graph.solidAlternatives id).length ∧
      ∃ definition, d.Defines calls definition ∧ d.graph.actual definition = id
  discriminators : ∀ id, Discriminator.Threads (s.wrappers.map (·.2))
    (d.graph.node id).discriminator (s.graph.node id).discriminator
  added : ∀ wrapper, (∃ id, s.wrapper? id = some wrapper) ↔
    d.graph.size ≤ wrapper ∧ wrapper < s.graph.size
  bases : ∀ id wrapper, s.wrapper? id = some wrapper → id < d.graph.size
  paired : ∀ id wrapper, s.wrapper? id = some wrapper ↔ s.wrapped? wrapper = some id

/-- Whatever is called, and whether it succeeds or not: the nodes of the document keep everything
but members and discriminators, and the new nodes are the wrappers, one for each wrapped definition
for good. -/
theorem session_changes (hload : ofJson text = .ok d ∨ ofYaml text = .ok d) (calls : List Call) :
    let s := ({ graph := d.graph } : Session).after env calls
    d.Changes calls s ∧ ∀ more id wrapper, s.wrapper? id = some wrapper →
      (s.after env more).wrapper? id = some wrapper := by
  intro s
  obtain ⟨root, hrepresents⟩ := represents_of_load hload
  obtain ⟨rank, hrank⟩ := hrepresents.exists_ranked
  have hrun : Run env { graph := d.graph } s := run_after _ calls
  obtain ⟨hs, hreshapes⟩ := hrun.reshapes hrepresents.closed hrank
  have htraced : Traced env d.graph (d.Defines calls) s := by
    refine Traced.calls (fun owner entry hentry => .inl ⟨owner, entry, hentry, rfl⟩)
      (fun definitions hmem entry hentry => .inr ⟨definitions, hmem, entry, hentry, rfl⟩) ?_
    exact .start env d.graph _
  refine ⟨?_, fun more id wrapper hwrapper => (run_after s more).wrapper? hwrapper⟩
  constructor
  case nodes =>
    intro id hid
    obtain ⟨parts, members, discriminator, _, hnode⟩ := hs.grows id
    have hparts : (s.graph.node id).allOf = (d.graph.node id).allOf := hrun.parts_kept hid
    rw [hnode] at hparts
    refine ⟨(d.graph.node id).enumeration ++ members, discriminator, ?_⟩
    rw [hnode, show (d.graph.node id).allOf ++ parts = (d.graph.node id).allOf from hparts]
  case members =>
    intro id hid
    refine (hreshapes.members id).imp_right fun ⟨hprepared, hno, hsolid, heq⟩ => ?_
    refine ⟨heq, hno, hsolid, ?_⟩
    obtain ⟨definition, steps, hdefined, hfollow⟩ := htraced.prepared id hprepared
    refine ⟨definition, hdefined, ?_⟩
    rw [hfollow]
    apply Graph.actual_of_follow
    rw [← hfollow, ← Option.not_isSome_iff_eq_none]
    -- A reference has no alternatives.
    intro href
    rw [Graph.solidAlternatives_of_oneOf (oneOf_of_reference hload id href)] at hsolid
    simp at hsolid
  case discriminators => exact hreshapes.threads
  case added => exact fun wrapper => hs.mem_wrappers_iff
  case bases => exact fun id wrapper hwrapper => hs.base_lt (hs.wrapper?_eq_some.mp hwrapper)
  case paired =>
    intro id wrapper
    rw [hs.wrapper?_eq_some, hs.wrapped?_eq_some]

theorem animal_session_changes :
    ∃ d, ofJson animalText = .ok d ∧
      let calls := [.register d.definitions, .emit]
      let s := ({ graph := d.graph } : Session).after (.ofSettings {}) calls
      d.Changes calls s ∧ ∀ more id wrapper, s.wrapper? id = some wrapper →
        (s.after (.ofSettings {}) more).wrapper? id = some wrapper := by
  obtain ⟨d, hload, _⟩ := animal_registers
  exact ⟨d, hload, session_changes (.inl hload) [.register d.definitions, .emit]⟩

end Document

end SchemaTypes
