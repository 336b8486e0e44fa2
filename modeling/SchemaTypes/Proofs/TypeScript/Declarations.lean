import SchemaTypes.Generation
import SchemaTypes.Proofs.Except
import SchemaTypes.Proofs.TypeScript.Usages

/-! A generated file is closed: it declares the names that the session has at its end, in their
order, and its declarations use no other names. -/

namespace SchemaTypes

namespace Shape

def parents : Shape → List String
  | interface parents _ _ => parents
  | union _ | enumeration _ | synonym _ => []

/-- The type expressions that a declaration is written with. -/
def exprs : Shape → List TypeExpr
  | interface _ fields _ => fields.filterMap fun field =>
      match field.type with
      | .expr e => some e
      | .literals _ => none
  | union variants => variants
  | enumeration _ => []
  | synonym target => [target]

end Shape

/-- The names that a declaration uses are among these. -/
structure Declaration.Over (names : List String) (d : Declaration) : Prop where
  parents : d.shape.parents ⊆ names
  exprs : ∀ e ∈ d.shape.exprs, e.Over names

lemma Declaration.Over.mono {names more : List String} {d : Declaration} (h : d.Over names)
    (hsub : names ⊆ more) : d.Over more :=
  ⟨List.Subset.trans h.parents hsub, fun e he => (h.exprs e he).mono hsub⟩

def Field.Over (names : List String) (field : Field) : Prop :=
  ∀ e, field.type = .expr e → e.Over names

open TypeExpr

namespace SessionM

variable {env : Environment} {s : Session}

lemma resolveVariants_spells (ids : List SchemaId) : SpellsAll env s (resolveVariants ids) := by
  induction ids generalizing s with
  | nil => exact .pure (by simp)
  | cons id rest ih =>
    refine (resolve_spells id false none).bind fun e t _ he => ?_
    refine ih.bind fun es u hrun hes => .pure ?_
    exact List.forall_mem_cons.mpr ⟨he.mono hrun.names_subset, hes⟩

lemma variants_spells (choice : Choice) : SpellsAll env s (variants choice) :=
  .look graph_apply (resolveVariants_spells _)

/-- What is declared has this name and is over the names that the session has then. -/
abbrev Declares (env : Environment) (s : Session) (name : String) (x : SessionM Declaration) :
    Prop :=
  Leads env s x fun d t => d.name = name ∧ d.Over t.names

lemma declareChoice_declares (choice : Choice) :
    Declares env s choice.name (declareChoice choice) := by
  refine (variants_spells choice).bind fun found t _ hfound => ?_
  refine .look graph_apply (.pure ⟨rfl, by simp [Shape.parents], fun e he => ?_⟩)
  simp only [Shape.exprs] at he
  split at he
  · rw [List.mem_singleton.mp he]
    exact over_keyword (by decide)
  · exact hfound e he

lemma collectParts_leads {parts : Parts} (ids : List SchemaId)
    (h : parts.parents ⊆ s.names) :
    Leads env s (collectParts parts ids) fun found t => found.parents ⊆ t.names := by
  induction ids generalizing s parts with
  | nil => exact .pure h
  | cons id rest ih =>
    refine .look graph_apply ?_
    split
    · refine (typeName_leads id none).bind fun name t hrun hname => ih ?_
      refine List.append_subset.mpr ⟨List.Subset.trans h hrun.names_subset, ?_⟩
      exact List.cons_subset.mpr ⟨Session.mem_names hname, List.nil_subset _⟩
    · exact ih h

lemma fieldType_leads (discriminator : Option (Discriminator SchemaId)) (key : String)
    (id : SchemaId) :
    Leads env s (fieldType discriminator key id) fun type t =>
      ∀ e, type = .expr e → e.Over t.names := by
  unfold fieldType
  split
  · exact .pure (by simp)
  · refine .look graph_apply (.look dialect_apply ?_)
    refine (resolve_spells id _ (some key)).bind fun e t _ he => .pure ?_
    rintro _ ⟨⟩
    exact he

lemma declareField_leads (discriminator : Option (Discriminator SchemaId))
    (required : List String) (key : String) (id : SchemaId) :
    Leads env s (declareField discriminator required key id) fun field t =>
      field.Over t.names :=
  (fieldType_leads discriminator key id).bind fun _ _ _ h => .look graph_apply (.pure h)

lemma declareFields_leads (discriminator : Option (Discriminator SchemaId))
    (required : List String) (properties : List (String × SchemaId)) :
    Leads env s (declareFields discriminator required properties) fun fields t =>
      ∀ field ∈ fields, field.Over t.names := by
  induction properties generalizing s with
  | nil => exact .pure (by simp)
  | cons property rest ih =>
    obtain ⟨key, id⟩ := property
    refine (declareField_leads discriminator required key id).bind fun field t _ hfield => ?_
    refine ih.bind fun fields u hrun hfields => .pure ?_
    refine List.forall_mem_cons.mpr ⟨fun e he => ?_, hfields⟩
    exact (hfield e he).mono hrun.names_subset

lemma addedField_over (properties : List (String × SchemaId))
    (discriminator : Option (Discriminator SchemaId)) {names : List String} :
    ∀ field ∈ addedField properties discriminator, field.Over names := by
  intro field hfield e he
  unfold addedField at hfield
  split at hfield
  · split at hfield
    · simp at hfield
    · rw [List.mem_singleton.mp hfield] at he
      cases he
  · simp at hfield

lemma declareInterface_declares (id : SchemaId) (name : String) :
    Declares env s name (declareInterface id name) := by
  refine .look graph_apply ?_
  refine (collectParts_leads _ (List.nil_subset _)).bind fun parts t _ hparts => ?_
  refine (declareFields_leads _ _ _).bind fun fields u hrun hfields => .pure ⟨rfl, ?_, ?_⟩
  · exact List.Subset.trans hparts hrun.names_subset
  · intro e he
    obtain ⟨field, hfield, htype⟩ := List.mem_filterMap.mp he
    have hover : field.Over u.names := by
      rcases List.mem_append.mp hfield with h | h
      · exact hfields field h
      · exact addedField_over _ _ field h
    split at htype
    · rename_i e' heq
      cases htype
      exact hover e heq
    · cases htype

lemma declare_declares (id : SchemaId) (name : String) :
    Declares env s name (declare id name) := by
  refine .look get_apply ?_
  simp only
  split
  · exact declareChoice_declares _
  · split
    · exact declareChoice_declares _
    · split
      · exact .pure ⟨rfl, by simp [Shape.parents], by simp [Shape.exprs]⟩
      · split
        · refine (aliasTarget_spells id).bind fun e t _ he => .pure ?_
          exact ⟨rfl, by simp [Shape.parents], by simpa [Shape.exprs] using he⟩
        · split
          · refine .pure ⟨rfl, by simp [Shape.parents], ?_⟩
            rintro e he
            rw [List.mem_singleton.mp he]
            exact over_keyword (by decide)
          · exact declareInterface_declares id name

lemma declarationsWithin_past {bound position : ℕ} (h : s.types[position]? = none) :
    declarationsWithin (bound + 1) position env s = (.ok [], s) := by
  rw [declarationsWithin, bind_ok get_apply]
  simp only [h, pure_apply]

lemma declarationsWithin_at {bound position : ℕ} {id : SchemaId} {name : String}
    (h : s.types[position]? = some (id, name)) :
    declarationsWithin (bound + 1) position env s =
      (do return (← declare id name) :: (← declarationsWithin bound (position + 1))) env s := by
  rw [declarationsWithin, bind_ok get_apply]
  simp only [h]

/-- The schema is declared with its name somewhere on the way from the first session to the last. -/
def DeclaredBetween (env : Environment) (s t : Session) (entry : SchemaId × String)
    (decl : Declaration) : Prop :=
  ∃ u v, Session.Run env s u ∧ declare entry.1 entry.2 env u = (.ok decl, v) ∧
    Session.Run env v t

section

variable {t : Session} {entry : SchemaId × String} {decl : Declaration}

lemma DeclaredBetween.mono {s' t' : Session} (h : DeclaredBetween env s t entry decl)
    (hs : Session.Run env s' s) (ht : Session.Run env t t') :
    DeclaredBetween env s' t' entry decl := by
  obtain ⟨u, v, hu, hdeclare, hv⟩ := h
  exact ⟨u, v, hs.trans hu, hdeclare, hv.trans ht⟩

lemma DeclaredBetween.declares (h : DeclaredBetween env s t entry decl) :
    decl.name = entry.2 ∧ decl.Over t.names := by
  obtain ⟨u, v, _, hdeclare, hv⟩ := h
  obtain ⟨_, hname, hover⟩ := (declare_declares entry.1 entry.2).result hdeclare
  exact ⟨hname, hover.mono hv.names_subset⟩

end

lemma declarationsWithin_between (bound position : ℕ) :
    Leads env s (declarationsWithin bound position) fun ds t =>
      List.Forall₂ (DeclaredBetween env s t) (t.types.drop position) ds := by
  induction bound generalizing s position with
  | zero => exact .throw
  | succ bound ih =>
    refine .look get_apply ?_
    split
    · rename_i h
      have hdrop : s.types.drop position = [] :=
        List.drop_eq_nil_of_le (List.getElem?_eq_none_iff.mp h)
      exact .pure (by rw [hdrop]; exact .nil)
    · rename_i id name h
      refine ((declare_declares id name).equation).bind fun decl t hrun hdecl => ?_
      refine (ih (position + 1)).bind fun ds u hrun' hds => .pure ?_
      rw [Session.Run.drop_types (hrun.trans hrun') h]
      refine .cons ⟨s, t, .refl, hdecl, hrun'⟩ (hds.imp fun entry decl hentry => ?_)
      exact hentry.mono hrun .refl

lemma declarationsWithin_eq_ok {bound position : ℕ} {t : Session} {id : SchemaId} {name : String}
    {ds : List Declaration} (hentry : s.types[position]? = some (id, name))
    (h : declarationsWithin (bound + 1) position env s = (.ok ds, t)) :
    ∃ decl u rest, declare id name env s = (.ok decl, u) ∧
      declarationsWithin bound (position + 1) env u = (.ok rest, t) ∧ ds = decl :: rest ∧
      Session.Run env s u ∧ Session.Run env u t := by
  rw [declarationsWithin_at hentry] at h
  obtain ⟨decl, u, hdeclare, hrest⟩ := bind_eq_ok h
  obtain ⟨rest, v, hwithin, hpure⟩ := bind_eq_ok hrest
  cases hpure
  exact ⟨decl, u, rest, hdeclare, hwithin, rfl, ((declare_declares id name).result hdeclare).1,
    ((declarationsWithin_between bound (position + 1)).result hwithin).1⟩

lemma declarations_between :
    Leads env s declarations fun ds t => List.Forall₂ (DeclaredBetween env s t) t.types ds :=
  .look graph_apply ((declarationsWithin_between _ 0).mono fun _ _ _ h => by
    simpa only [List.drop_zero] using h)

lemma declarations_leads :
    Leads env s declarations fun ds t =>
      ds.map (·.name) = t.names ∧ ∀ d ∈ ds, d.Over t.names := by
  refine declarations_between.mono fun ds t _ h => ⟨?_, fun d hd => ?_⟩
  · have hnames : List.Forall₂ (· = ·) (ds.map (·.name)) (t.types.map (·.2)) := by
      rw [List.forall₂_map_left_iff, List.forall₂_map_right_iff]
      exact h.flip.imp fun _ _ hdecl => (DeclaredBetween.declares hdecl).1
    rwa [List.forall₂_eq_eq_eq] at hnames
  · obtain ⟨_, _, hdecl⟩ := Except.exists_of_forall₂_right h hd
    exact hdecl.declares.2

lemma emit_leads :
    Leads env s emit fun text t => ∃ ds, text = fileText env.typescript.exported ds ∧
      ds.map (·.name) = t.names ∧ ∀ d ∈ ds, d.Over t.names :=
  .look read_apply (declarations_leads.bind fun ds _ _ h => .pure ⟨ds, rfl, h⟩)

end SessionM

namespace Document

open SessionM

variable {env : Environment} {s : Session}

lemma nameRoot_leads (d : Document) :
    Leads env s (do
      if (← isDefinitionType d.root) && !((← SessionM.graph).node d.root).isAny then
        discard (typeName d.root (some (← read).typescript.rootName)))
      fun _ _ => True := by
  refine .look (isDefinitionType_apply d.root) (.look graph_apply ?_)
  split
  · exact .look read_apply (typeName_leads _ _).discard
  · exact .pure trivial

lemma register_leads (d : Document) : Leads env s d.register fun _ _ => True :=
  (SessionM.register_leads d.definitions).bind fun _ _ _ _ => d.nameRoot_leads

lemma emit_leads (d : Document) :
    Leads env s d.emit fun files t => ∃ ds,
      files = [⟨"types.ts", fileText env.typescript.exported ds⟩] ∧
      ds.map (·.name) = t.names ∧ ∀ decl ∈ ds, decl.Over t.names := by
  refine d.register_leads.bind fun _ t _ _ => ?_
  refine SessionM.emit_leads.bind fun text u _ h => .pure ?_
  obtain ⟨ds, rfl, hds⟩ := h
  exact ⟨ds, rfl, hds⟩

def petOwner : Document where
  graph := ⟨#[
    { types := [.object], properties := [("pets", 4)], definitions := [("Pet", 1)] },
    { types := [.object], properties := [("name", 2)] },
    { types := [.string], isProperty := true },
    { reference := some 1 },
    { types := [.array], items := some (.each 3), isProperty := true }]⟩

end Document

end SchemaTypes
