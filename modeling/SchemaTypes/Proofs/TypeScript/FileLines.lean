import SchemaTypes.Proofs.TypeScript.NamingPolicies
import SchemaTypes.Proofs.TypeScript.Rows

/-! The rows of a generated file are well formed: names are identifiers, type expressions are
written with nothing else, and descriptions are brought onto one line. -/

namespace SchemaTypes

open Text

namespace TypeExpr

mutual

lemma newline_not_mem_chars :
    ∀ e : TypeExpr, (∀ name ∈ e.idents, isIdentifier name) → '\n' ∉ e.chars
  | ident name, h => mark_not_mem_identifier (h name (List.mem_singleton_self _)) (by decide)
  | array element, h => by
    have helement := newline_not_mem_chars element h
    rw [chars]
    split <;> simp [helement]
  | tuple members, h => by
    have hseparator : '\n' ∉ [',', ' '] := by decide
    simp [chars, newline_not_mem_charsBetween hseparator members h]
  | dictionary key value, h => by
    rw [idents, List.forall_mem_append] at h
    have hkey := newline_not_mem_chars key h.1
    have hvalue := newline_not_mem_chars value h.2
    rw [chars]
    split <;> simp [hkey, hvalue]
  | union members, h => newline_not_mem_charsBetween (by decide) members h

lemma newline_not_mem_charsBetween {separator : List Char} (hseparator : '\n' ∉ separator) :
    ∀ es : List TypeExpr, (∀ name ∈ identsOfAll es, isIdentifier name) →
      '\n' ∉ charsBetween separator es
  | [], _ => List.not_mem_nil
  | [e], h => newline_not_mem_chars e (by simpa [identsOfAll] using h)
  | e :: next :: rest, h => by
    rw [identsOfAll, List.forall_mem_append] at h
    simp [charsBetween, hseparator, newline_not_mem_chars e h.1,
      newline_not_mem_charsBetween hseparator (next :: rest) h.2]

end

lemma Over.newline_not_mem_chars {names : List String} {e : TypeExpr} (h : e.Over names)
    (hnames : ∀ name ∈ names, isIdentifier name) : '\n' ∉ e.chars := by
  have hkeywords : ∀ name ∈ keywords, isIdentifier name := by decide +kernel
  exact e.newline_not_mem_chars fun name hname => (h name hname).elim (hkeywords name) (hnames name)

end TypeExpr

def Shape.fields : Shape → List Field
  | interface _ fields _ => fields
  | union _ | enumeration _ | synonym _ => []

/-- The descriptions of a declaration and of its fields are on one line each. -/
structure Declaration.OneLine (d : Declaration) : Prop where
  description : ∀ text ∈ d.description, '\n' ∉ text.toList
  fields : ∀ field ∈ d.shape.fields, ∀ text ∈ field.description, '\n' ∉ text.toList

lemma wellFormed_commentRows {indented : Bool} {description : Option String}
    (h : ∀ text ∈ description, '\n' ∉ text.toList) :
    ∀ row ∈ commentRows indented description, row.WellFormed := by
  intro row hrow
  obtain ⟨text, htext, rfl⟩ := Option.map_eq_some_iff.mp (Option.mem_toList.mp hrow)
  exact h text htext

lemma wellFormed_fieldRows {field : Field}
    (hdescription : ∀ text ∈ field.description, '\n' ∉ text.toList)
    (hexpr : ∀ e, field.type = .expr e → '\n' ∉ e.chars) :
    ∀ row ∈ field.rows, row.WellFormed := by
  rw [Field.rows, List.forall_mem_append, List.forall_mem_singleton]
  refine ⟨wellFormed_commentRows hdescription, ?_⟩
  change '\n' ∉ field.type.chars
  cases htype : field.type with
  | expr e => exact hexpr e htype
  | literals values =>
    refine newline_not_mem_joinChars (by decide) fun part hpart => ?_
    obtain ⟨value, _, rfl⟩ := List.mem_map.mp hpart
    exact newline_not_mem_jsonLiteral _

lemma wellFormed_shapeRows {name : String} {shape : Shape} (hname : isIdentifier name)
    (hparents : ∀ parent ∈ shape.parents, isIdentifier parent)
    (hfields : ∀ field ∈ shape.fields, ∀ text ∈ field.description, '\n' ∉ text.toList)
    (hexprs : ∀ e ∈ shape.exprs, '\n' ∉ e.chars) : ∀ row ∈ shape.rows name, row.WellFormed := by
  have hbar : '\n' ∉ bar := by decide
  cases shape with
  | interface parents fields indexed =>
    simp only [Shape.rows, List.cons_append, List.forall_mem_cons, List.forall_mem_append,
      List.forall_mem_flatMap]
    refine ⟨⟨hname, hparents⟩, ⟨fun field hfield => ?_, ?_⟩, trivial, by simp⟩
    · refine wellFormed_fieldRows (hfields field hfield) fun e htype => ?_
      exact hexprs e (List.mem_filterMap.mpr ⟨field, hfield, by simp only [htype]⟩)
    · cases indexed <;> simp [Row.WellFormed]
  | union variants =>
    refine List.forall_mem_singleton.mpr ⟨hname, newline_not_mem_joinChars hbar ?_⟩
    intro part hpart
    obtain ⟨e, he, rfl⟩ := List.mem_map.mp hpart
    exact hexprs e he
  | enumeration values =>
    refine List.forall_mem_singleton.mpr ⟨hname, newline_not_mem_joinChars hbar ?_⟩
    intro part hpart
    obtain ⟨value, _, rfl⟩ := List.mem_map.mp hpart
    exact value.newline_not_mem_compactText
  | synonym target =>
    exact List.forall_mem_singleton.mpr ⟨hname, hexprs target (List.mem_singleton_self _)⟩

lemma Declaration.OneLine.wellFormed {d : Declaration} {names : List String} (h : d.OneLine)
    (hname : d.name ∈ names) (hover : d.Over names) (hnames : ∀ name ∈ names, isIdentifier name) :
    ∀ row ∈ d.rows, row.WellFormed := by
  rw [rows, List.cons_append, List.forall_mem_cons, List.forall_mem_append]
  refine ⟨trivial, wellFormed_commentRows h.description, ?_⟩
  exact wellFormed_shapeRows (hnames _ hname)
    (fun parent hparent => hnames parent (hover.parents hparent)) h.fields
    fun e he => (hover.exprs e he).newline_not_mem_chars hnames

lemma newline_not_mem_describe {description : Option String} :
    ∀ text ∈ describe description, '\n' ∉ text.toList := by
  intro text htext
  obtain ⟨line, hline, htext⟩ := Option.bind_eq_some_iff.mp htext
  obtain ⟨text', _, rfl⟩ := Option.map_eq_some_iff.mp hline
  unfold nonempty at htext
  split at htext
  · cases htext
  · cases htext
    exact newline_not_mem_oneLine text'

namespace SessionM

variable {env : Environment} {s : Session}

lemma declareChoice_oneLine (choice : Choice) :
    Leads env s (declareChoice choice) fun d _ => d.OneLine := by
  refine (variants_spells choice).bind fun found t _ _ => .look graph_apply (.pure ⟨?_, ?_⟩)
  · intro text htext
    simp only at htext
    split at htext
    · obtain ⟨text', _, rfl⟩ := Option.map_eq_some_iff.mp htext
      exact newline_not_mem_oneLine text'
    · cases htext
  · simp [Shape.fields]

lemma declareFields_oneLine (discriminator : Option (Discriminator SchemaId))
    (required : List String) (properties : List (String × SchemaId)) :
    Leads env s (declareFields discriminator required properties) fun fields _ =>
      ∀ field ∈ fields, ∀ text ∈ field.description, '\n' ∉ text.toList := by
  induction properties generalizing s with
  | nil => exact .pure (by simp)
  | cons property rest ih =>
    obtain ⟨key, id⟩ := property
    have hfield : Leads env s (declareField discriminator required key id) fun field _ =>
        ∀ text ∈ field.description, '\n' ∉ text.toList :=
      (fieldType_leads discriminator key id).bind fun _ _ _ _ =>
        .look graph_apply (.pure newline_not_mem_describe)
    refine hfield.bind fun field t _ hfield => ih.bind fun fields u _ hfields => .pure ?_
    exact List.forall_mem_cons.mpr ⟨hfield, hfields⟩

lemma declareInterface_oneLine (id : SchemaId) (name : String) :
    Leads env s (declareInterface id name) fun d _ => d.OneLine := by
  refine .look graph_apply ?_
  refine (collectParts_leads _ (List.nil_subset _)).bind fun parts t _ _ => ?_
  refine (declareFields_oneLine _ _ _).bind fun fields u _ hfields => .pure ?_
  refine ⟨newline_not_mem_describe, List.forall_mem_append.mpr ⟨hfields, ?_⟩⟩
  intro field hfield text htext
  unfold addedField at hfield
  split at hfield
  · split at hfield
    · simp at hfield
    · rw [List.mem_singleton.mp hfield] at htext
      cases htext
  · simp at hfield

lemma declare_oneLine (id : SchemaId) (name : String) :
    Leads env s (declare id name) fun d _ => d.OneLine := by
  refine .look get_apply ?_
  simp only
  split
  · exact declareChoice_oneLine _
  · split
    · exact declareChoice_oneLine _
    · split
      · exact .pure ⟨newline_not_mem_describe, by simp [Shape.fields]⟩
      · split
        · refine (aliasTarget_spells id).bind fun e t _ _ => .pure ?_
          exact ⟨newline_not_mem_describe, by simp [Shape.fields]⟩
        · split
          · exact .pure ⟨newline_not_mem_describe, by simp [Shape.fields]⟩
          · exact declareInterface_oneLine id name

lemma DeclaredBetween.oneLine {t : Session} {entry : SchemaId × String} {decl : Declaration}
    (h : DeclaredBetween env s t entry decl) : decl.OneLine := by
  obtain ⟨u, v, _, hdeclare, _⟩ := h
  exact ((declare_oneLine entry.1 entry.2).result hdeclare).2

end SessionM

namespace Document

open SessionM

variable {d : Document} {env : Environment} {ds : List Declaration} {t : Session}

lemma declared_rows_wellFormed (h : d.declare env { graph := d.graph } = (.ok ds, t)) :
    ∀ row ∈ fileRows ds, row.WellFormed := by
  obtain ⟨_, u, hregister, hdeclarations⟩ := bind_eq_ok h
  obtain ⟨hrun, hdeclared⟩ := declarations_between.result hdeclarations
  have hall : Session.Run env { graph := d.graph } t :=
    (d.register_leads.result hregister).1.trans hrun
  have hvalid := (hall.namesApart (.start d.graph)).identifiers
  refine List.forall_mem_flatMap.mpr fun decl hdecl => ?_
  obtain ⟨entry, hentry, hbetween⟩ := Except.exists_of_forall₂_right hdeclared hdecl
  obtain ⟨hname, hover⟩ := hbetween.declares
  refine hbetween.oneLine.wellFormed ?_ hover hvalid
  rw [hname]
  exact List.mem_map_of_mem hentry

end Document

end SchemaTypes
