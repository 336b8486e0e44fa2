import SchemaTypes.Proofs.Session.Effects

/-! Which schemas get names where the graph stays as it is: the one that is asked for and what its
definitions are named by, each behind its nullability and its references. -/

namespace SchemaTypes

lemma Graph.expandAlternatives_eq_or (g : Graph) (id : SchemaId) :
    g.expandAlternatives id = g ∨
      (g.node id).enumeration.length < ((g.expandAlternatives id).node id).enumeration.length := by
  rcases g.expandAlternatives_cases id with heq | ⟨_, hsolid, hlt, heq⟩
  · exact .inl heq
  · right
    have hpos : 0 < (g.node id).oneOf.length :=
      List.length_pos_iff.mpr (oneOf_ne_nil_of_solid hsolid)
    rw [heq, node_update_self hlt]
    simpa [Node.alternativeMembers] using hpos

namespace Session

variable {env : Environment} {s t u : Session} {id : SchemaId} {inlineNamedAny : Bool}

/-- The graph has changed between the sessions: it has got a wrapper or a schema has got members. -/
def Moved (s t : Session) : Prop :=
  s.graph.size < t.graph.size ∨
    ∃ id, (s.graph.node id).enumeration.length < (t.graph.node id).enumeration.length

lemma Run.members_length_le (h : Run env s t) (id : SchemaId) :
    (s.graph.node id).enumeration.length ≤ (t.graph.node id).enumeration.length := by
  obtain ⟨members, hmembers, _⟩ := h.expands id
  rw [hmembers, List.length_append]
  exact Nat.le_add_right _ _

lemma Moved.later (h : Moved s t) (hrun : Run env t u) : Moved s u := by
  rcases h with hlt | ⟨id, hlt⟩
  · exact .inl (Nat.lt_of_lt_of_le hlt hrun.size_le)
  · exact .inr ⟨id, Nat.lt_of_lt_of_le hlt (hrun.members_length_le id)⟩

lemma Step.still_or_moved (h : Step env s t) :
    (t.graph = s.graph ∧ t.wrappers = s.wrappers) ∨ Moved s t := by
  rcases h.graph_cases with ⟨hwrappers, hgraph | ⟨id, hgraph⟩⟩ | ⟨id, d, hwraps⟩
  · exact .inl ⟨hgraph, hwrappers⟩
  · rcases s.graph.expandAlternatives_eq_or id with heq | hlt
    · exact .inl ⟨hgraph.trans heq, hwrappers⟩
    · exact .inr (.inr ⟨id, by rwa [hgraph]⟩)
  · exact .inr (.inl (by rw [hwraps.graph.size]; exact Nat.lt_succ_self _))

lemma Run.still_or_moved (h : Run env s t) :
    (t.graph = s.graph ∧ t.wrappers = s.wrappers) ∨ Moved s t := by
  induction h with
  | refl => exact .inl ⟨rfl, rfl⟩
  | tail _ hlast ih =>
    rcases ih with ⟨hgraph, hwrappers⟩ | hmoved
    · have hstep := hlast.still_or_moved
      rwa [Moved, hgraph, hwrappers] at hstep
    · exact .inr (hmoved.later (.single hlast))

lemma Run.still_between (h : Run env s u) (h' : Run env u t) (hsame : t.graph = s.graph) :
    u.graph = s.graph ∧ u.wrappers = s.wrappers := by
  refine h.still_or_moved.resolve_right fun hmoved => ?_
  rcases hmoved.later h' with hlt | ⟨id, hlt⟩
  · exact Nat.lt_irrefl _ (hsame ▸ hlt)
  · exact Nat.lt_irrefl _ (hsame ▸ hlt)

/-- What the definitions of a schema may be named by: themselves, or wrappers. -/
def Registrable (inlineNamedAny : Bool) (s : Session) (id : SchemaId) : Prop :=
  (∃ owner, ∃ entry ∈ (s.graph.node owner).definitions, s.graph.actual entry.2 = id ∧
    s.graph.isDefinitionType inlineNamedAny id) ∨ ∃ base, s.wrapper? base = some id

lemma Registrable.congr (h : t.Registrable inlineNamedAny id)
    (hsame : t.graph = s.graph ∧ t.wrappers = s.wrappers) : s.Registrable inlineNamedAny id := by
  simpa only [Registrable, wrapper?, hsame.1, hsame.2] using h

lemma prepare_registrable {owner : SchemaId} {entry : String × SchemaId}
    (hentry : entry ∈ (s.graph.node owner).definitions)
    (h : s.graph.isDefinitionType inlineNamedAny (s.graph.actual entry.2))
    (hsame : (s.prepare (s.graph.actual entry.2)).2.graph = s.graph) :
    (s.prepare (s.graph.actual entry.2)).2.Registrable inlineNamedAny
      (s.prepare (s.graph.actual entry.2)).1 := by
  rcases hprepare : s.prepare (s.graph.actual entry.2) with ⟨target, t⟩
  rw [hprepare] at hsame
  rcases prepare_settles hprepare with hwrapper | ⟨rfl, _⟩
  · exact .inr ⟨_, hwrapper⟩
  · exact .inl ⟨owner, entry, by rwa [hsame], by rw [hsame], by rwa [hsame]⟩

end Session

namespace SessionM

open Session (Run)

variable {env : Environment} {s t : Session} {id c : SchemaId}

lemma registerEach_names {depth : ℕ}
    (hname : ∀ {s id hint n t c}, typeNameWithin depth id hint env s = (.ok n, t) →
      t.graph = s.graph → t.nameOf? c ≠ none → s.nameOf? c ≠ none ∨
        ∃ named, (named = id ∨ s.Registrable env.resolver.inlineNamedAny named) ∧
          c = s.graph.carrier named)
    {owner : SchemaId} {definitions : List (String × SchemaId)}
    (hdefinitions : definitions ⊆ (s.graph.node owner).definitions)
    (h : registerEach (typeNameWithin depth) definitions env s = (.ok (), t))
    (hsame : t.graph = s.graph) (hc : t.nameOf? c ≠ none) :
    s.nameOf? c ≠ none ∨
      ∃ named, s.Registrable env.resolver.inlineNamedAny named ∧ c = s.graph.carrier named := by
  induction definitions generalizing s with
  | nil =>
    cases h
    exact .inl hc
  | cons entry rest ih =>
    obtain ⟨key, definition⟩ := entry
    obtain ⟨hentry, hothers⟩ := List.cons_subset.mp hdefinitions
    cases hdef : s.graph.isDefinitionType env.resolver.inlineNamedAny
        (s.graph.actual definition) with
    | false =>
      rw [registerEach_passed hdef] at h
      exact ih hothers h hsame
    | true =>
      rw [registerEach_named hdef] at h
      obtain ⟨n, u, hnamed, hrest⟩ := bind_eq_ok h
      generalize hr : (s.prepare (s.graph.actual definition)).2 = r at hnamed
      have hprepare : Run env s r := hr ▸ .single (.prepare _ hdef)
      have hnames : Run env r u := ((typeNameWithin_leads _ _ _).result hnamed).1
      have hlater : Run env u t :=
        ((registerEach_leads (fun id hint _ => (typeNameWithin_leads _ id hint).forget) _).result
          hrest).1
      have hbefore : Run env s u := hprepare.trans hnames
      have hu := hbefore.still_between hlater hsame
      have hr' := hprepare.still_between (hnames.trans hlater) hsame
      have htarget := Session.prepare_registrable hentry hdef (by rw [hr]; exact hr'.1)
      simp only [hr] at htarget
      rcases ih (by rwa [hu.1]) hrest (hsame.trans hu.1.symm) with hc | ⟨named, hnamed, hc⟩
      · rcases hname hnamed (hu.1.trans hr'.1.symm) hc with hc | ⟨named, hnamed, hc⟩
        · rw [Session.nameOf?, ← hr, Session.prepare_types] at hc
          exact .inl hc
        · rw [hr'.1] at hc
          refine .inr ⟨named, ?_, hc⟩
          rcases hnamed with rfl | hnamed
          · exact htarget.congr hr'
          · exact hnamed.congr hr'
      · rw [hu.1] at hc
        exact .inr ⟨named, hnamed.congr hu, hc⟩

lemma typeNameWithin_names {depth : ℕ} {hint : Option String} {n : String}
    (h : typeNameWithin depth id hint env s = (.ok n, t)) (hsame : t.graph = s.graph)
    (hc : t.nameOf? c ≠ none) : s.nameOf? c ≠ none ∨
      ∃ named, (named = id ∨ s.Registrable env.resolver.inlineNamedAny named) ∧
        c = s.graph.carrier named := by
  induction depth generalizing s id hint n t c with
  | zero => cases h
  | succ depth ih =>
    rcases typeNameWithin_eq_ok h with ⟨_, rfl⟩ | ⟨u, hu, hassign⟩
    · exact .inl hc
    by_cases hother : c = s.graph.carrier id
    · exact .inr ⟨id, .inl rfl, hother⟩
    have hcu : u.nameOf? c ≠ none := by
      rcases assign_eq_ok hassign with ⟨_, rfl⟩ | ⟨_, rfl⟩
      · exact hc
      · obtain ⟨n', hn'⟩ := Option.ne_none_iff_exists'.mp hc
        exact Option.ne_none_iff_exists'.mpr ⟨n', nameOf?_of_give hother hn'⟩
    rcases hu with ⟨_, rfl⟩ | ⟨_, v, hregister, rfl⟩
    · exact .inl hcu
    have hgraph : t.graph = v.graph := by
      rcases assign_eq_ok hassign with ⟨_, rfl⟩ | ⟨_, rfl⟩
      · rfl
      · rfl
    have hdefinitions := List.Subset.refl (s.graph.node (s.graph.carrier id)).definitions
    refine (registerEach_names (s := s.beginRegistration (s.graph.carrier id)) ih hdefinitions
      hregister (hgraph.symm.trans hsame) hcu).imp_right ?_
    exact fun ⟨named, hnamed, hc⟩ => ⟨named, .inr hnamed, hc⟩

/-- Where naming a schema leaves the graph as it is, only its carrier gets a name, and the carriers
of what definitions are named by. -/
lemma typeName_names {hint : Option String} {n : String}
    (h : typeName id hint env s = (.ok n, t)) (hsame : t.graph = s.graph)
    (hc : t.nameOf? c ≠ none) : s.nameOf? c ≠ none ∨
      ∃ named, (named = id ∨ s.Registrable env.resolver.inlineNamedAny named) ∧
        c = s.graph.carrier named := by
  rw [typeName, bind_ok graph_apply] at h
  exact typeNameWithin_names h hsame hc

end SessionM

end SchemaTypes
