import SchemaTypes.Proofs.TypeScript.Declarations
import Mathlib.Data.Set.Function

/-! Other names for types. Expressions that differ still do so under other names, as long as
different names do. -/

namespace SchemaTypes

namespace TypeExpr

mutual

def rename (f : String → String) : TypeExpr → TypeExpr
  | ident name => ident (f name)
  | array element => array (rename f element)
  | tuple members => tuple (renameAll f members)
  | dictionary key value => dictionary (rename f key) (rename f value)
  | union members => union (renameAll f members)

def renameAll (f : String → String) : List TypeExpr → List TypeExpr
  | [] => []
  | e :: rest => rename f e :: renameAll f rest

end

variable {f f' : String → String}

@[simp] lemma renameAll_eq (f : String → String) (es : List TypeExpr) :
    renameAll f es = es.map (rename f) := by
  induction es with
  | nil => rfl
  | cons e rest ih => rw [renameAll, ih, List.map_cons]

mutual

lemma rename_congr : ∀ e : TypeExpr, (∀ name ∈ e.idents, f name = f' name) →
    rename f e = rename f' e
  | ident name, h => by rw [rename, rename, h name (by simp [idents])]
  | array element, h => by rw [rename, rename, rename_congr element h]
  | tuple members, h => by rw [rename, rename, renameAll_congr members h]
  | dictionary key value, h => by
    rw [rename, rename, rename_congr key fun n hn => h n (by simp [idents, hn]),
      rename_congr value fun n hn => h n (by simp [idents, hn])]
  | union members, h => by rw [rename, rename, renameAll_congr members h]

lemma renameAll_congr : ∀ es : List TypeExpr, (∀ name ∈ identsOfAll es, f name = f' name) →
    renameAll f es = renameAll f' es
  | [], _ => rfl
  | e :: rest, h => by
    rw [renameAll, renameAll, rename_congr e fun n hn => h n (by simp [identsOfAll, hn]),
      renameAll_congr rest fun n hn => h n (by simp [identsOfAll, hn])]

end

mutual

lemma rename_rename : ∀ e : TypeExpr, rename f' (rename f e) = rename (f' ∘ f) e
  | ident name => rfl
  | array element => by rw [rename, rename, rename, rename_rename element]
  | tuple members => by rw [rename, rename, rename, renameAll_renameAll members]
  | dictionary key value => by
    rw [rename, rename, rename, rename_rename key, rename_rename value]
  | union members => by rw [rename, rename, rename, renameAll_renameAll members]

lemma renameAll_renameAll : ∀ es : List TypeExpr,
    renameAll f' (renameAll f es) = renameAll (f' ∘ f) es
  | [] => rfl
  | e :: rest => by
    rw [renameAll, renameAll, renameAll, rename_rename e, renameAll_renameAll rest]

end

mutual

lemma rename_id : ∀ e : TypeExpr, rename id e = e
  | ident name => rfl
  | array element => by rw [rename, rename_id element]
  | tuple members => by rw [rename, renameAll_id members]
  | dictionary key value => by rw [rename, rename_id key, rename_id value]
  | union members => by rw [rename, renameAll_id members]

lemma renameAll_id : ∀ es : List TypeExpr, renameAll id es = es
  | [] => rfl
  | e :: rest => by rw [renameAll, rename_id e, renameAll_id rest]

end

/-- Names can be given back where they were changed injectively. -/
lemma rename_inj {names : Set String} (hf : names.InjOn f) {e e' : TypeExpr}
    (he : ∀ name ∈ e.idents, name ∈ names) (he' : ∀ name ∈ e'.idents, name ∈ names) :
    rename f e = rename f e' ↔ e = e' := by
  have hback : ∀ e : TypeExpr, (∀ name ∈ e.idents, name ∈ names) →
      rename (Function.invFunOn f names) (rename f e) = e := by
    intro e he
    rw [rename_rename]
    refine (rename_congr e fun name hname => ?_).trans (rename_id e)
    exact hf.leftInvOn_invFunOn (he name hname)
  refine ⟨fun h => ?_, congrArg (rename f)⟩
  rw [← hback e he, h, hback e' he']

lemma unionMembers_rename (f : String → String) (e : TypeExpr) :
    (rename f e).unionMembers = e.unionMembers.map (rename f) := by
  cases e with
  | union members => rw [rename, unionMembers, unionMembers, renameAll_eq]
  | ident | array | tuple | dictionary => rfl

lemma join_rename (f : String → String) (es : List TypeExpr) :
    join (es.map (rename f)) = rename f (join es) := by
  have hmembers : (es.map (rename f)).flatMap unionMembers =
      (es.flatMap unionMembers).map (rename f) := by
    rw [List.flatMap_map, List.map_flatMap]
    simp only [unionMembers_rename]
  rw [join, join, hmembers]
  rcases es.flatMap unionMembers with _ | ⟨e, _ | ⟨e', rest⟩⟩
  · rfl
  · rfl
  · simp [rename]

end TypeExpr

open TypeExpr

/-- What is made of type names. What is over some names stays as it is if none of them changes. -/
class Renames (α : Type) where
  rename : (String → String) → α → α
  Over : List String → α → Prop
  over_mono : ∀ {names more : List String} {a : α}, Over names a → names ⊆ more → Over more a
  rename_congr : ∀ {names : List String} {a : α} {f f' : String → String}, Over names a →
    (∀ name, name ∈ keywords ∨ name ∈ names → f name = f' name) → rename f a = rename f' a

instance : Renames String where
  rename f name := f name
  Over names name := name ∈ names
  over_mono h hsub := hsub h
  rename_congr h hf := hf _ (.inr h)

instance : Renames TypeExpr where
  rename := TypeExpr.rename
  Over := TypeExpr.Over
  over_mono h hsub := h.mono hsub
  rename_congr h hf := TypeExpr.rename_congr _ fun name hname => hf name (h name hname)

instance {α : Type} [Renames α] : Renames (List α) where
  rename f as := as.map (Renames.rename f)
  Over names as := ∀ a ∈ as, Renames.Over names a
  over_mono h hsub a ha := Renames.over_mono (h a ha) hsub
  rename_congr h hf := List.map_congr_left fun a ha => Renames.rename_congr (h a ha) hf

instance {α : Type} [Renames α] : Renames (Option α) where
  rename f a? := a?.map (Renames.rename f)
  Over names a? := ∀ a ∈ a?, Renames.Over names a
  over_mono h hsub a ha := Renames.over_mono (h a ha) hsub
  rename_congr h hf := Option.map_congr fun a ha => Renames.rename_congr (h a ha) hf

def FieldType.rename (f : String → String) : FieldType → FieldType
  | expr e => expr (e.rename f)
  | literals values => literals values

def Field.rename (f : String → String) (field : Field) : Field :=
  { field with type := field.type.rename f }

def Shape.rename (f : String → String) : Shape → Shape
  | interface parents fields indexed =>
    interface (parents.map f) (fields.map (Field.rename f)) indexed
  | union variants => union (variants.map (TypeExpr.rename f))
  | enumeration values => enumeration values
  | synonym target => synonym (target.rename f)

/-- A declaration of the same type where all types have other names. -/
def Declaration.rename (f : String → String) (d : Declaration) : Declaration :=
  { d with name := f d.name, shape := d.shape.rename f }

instance : Renames FieldType where
  rename := FieldType.rename
  Over names type := ∀ e, type = .expr e → e.Over names
  over_mono h hsub e he := (h e he).mono hsub
  rename_congr {_ type _ _} h hf := by
    cases type with
    | literals => rfl
    | expr e => exact congrArg FieldType.expr (Renames.rename_congr (h e rfl) hf)

instance : Renames Field where
  rename := Field.rename
  Over := Field.Over
  over_mono h hsub e he := (h e he).mono hsub
  rename_congr {_ field _ _} h hf :=
    congrArg (fun type => { field with type }) (Renames.rename_congr (α := FieldType) h hf)

/-- The names that a shape uses are among these. -/
def Shape.Over (names : List String) (shape : Shape) : Prop :=
  shape.parents ⊆ names ∧ ∀ e ∈ shape.exprs, e.Over names

lemma Shape.over_interface {names parents : List String} {fields : List Field} {indexed : Bool} :
    (interface parents fields indexed).Over names ↔
      parents ⊆ names ∧ ∀ field ∈ fields, field.Over names := by
  refine and_congr .rfl ⟨fun h field hfield e he => ?_, fun h e he => ?_⟩
  · exact h e (List.mem_filterMap.mpr ⟨field, hfield, by rw [he]⟩)
  · obtain ⟨field, hfield, htype⟩ := List.mem_filterMap.mp he
    split at htype
    · rename_i e' heq
      cases htype
      exact h field hfield e heq
    · cases htype

instance : Renames Shape where
  rename := Shape.rename
  Over := Shape.Over
  over_mono h hsub := ⟨List.Subset.trans h.1 hsub, fun e he => (h.2 e he).mono hsub⟩
  rename_congr {names shape f f'} h hf := by
    cases shape with
    | interface parents fields indexed =>
      rw [Shape.over_interface] at h
      have hparents : parents.map f = parents.map f' :=
        Renames.rename_congr (α := List String) h.1 hf
      have hfields : fields.map (Field.rename f) = fields.map (Field.rename f') :=
        Renames.rename_congr (α := List Field) h.2 hf
      rw [Shape.rename, Shape.rename, hparents, hfields]
    | union variants =>
      exact congrArg Shape.union (Renames.rename_congr (α := List TypeExpr) h.2 hf)
    | enumeration => rfl
    | synonym target =>
      have htarget : target.Over names := h.2 target (List.mem_singleton_self _)
      exact congrArg Shape.synonym (Renames.rename_congr (α := TypeExpr) htarget hf)

instance : Renames Declaration where
  rename := Declaration.rename
  Over names d := d.name ∈ names ∧ d.shape.Over names
  over_mono h hsub := ⟨hsub h.1, Renames.over_mono (α := Shape) h.2 hsub⟩
  rename_congr {_ d f f'} h hf := by
    have hname : f d.name = f' d.name := hf _ (.inr h.1)
    have hshape : d.shape.rename f = d.shape.rename f' :=
      Renames.rename_congr (α := Shape) h.2 hf
    rw [Declaration.rename, Declaration.rename, hname, hshape]

instance : Renames SessionM.Parts where
  rename f parts := { parts with parents := parts.parents.map f }
  Over names parts := ∀ parent ∈ parts.parents, parent ∈ names
  over_mono h hsub parent hparent := hsub (h parent hparent)
  rename_congr {_ parts _ _} h hf :=
    congrArg (fun parents => { parts with parents })
      (Renames.rename_congr (α := List String) h hf)

end SchemaTypes
