import SchemaTypes.Proofs.Graph.Ranges

/-! Relations between actions that sequencing keeps. If the actions for the children of a schema
are related one by one, then so are the traversals of the schema. -/

namespace SchemaTypes

structure IsCongruence (m : Type → Type) [Monad m] (R : (γ : Type) → m γ → m γ → Prop) : Prop where
  pure : ∀ {γ : Type} (c : γ), R γ (pure c) (pure c)
  bind : ∀ {γ δ : Type} {x y : m γ} {f f' : γ → m δ},
    R γ x y → (∀ c, R δ (f c) (f' c)) → R δ (x >>= f) (y >>= f')

namespace IsCongruence

variable {m : Type → Type} [Monad m] {R : (γ : Type) → m γ → m γ → Prop} (hR : IsCongruence m R)
  {α β γ δ : Type}

include hR

lemma mapM [LawfulMonad m] {xs : List γ} {f f' : γ → m δ} (h : ∀ x ∈ xs, R _ (f x) (f' x)) :
    R _ (xs.mapM f) (xs.mapM f') := by
  induction xs with
  | nil => exact hR.pure []
  | cons x xs ih =>
    obtain ⟨hx, hxs⟩ := List.forall_mem_cons.mp h
    rw [List.mapM_cons, List.mapM_cons]
    exact hR.bind hx fun _ => hR.bind (ih hxs) fun _ => hR.pure _

lemma option {f f' : γ → m δ} {a : Option γ} (h : ∀ c, a = some c → R _ (f c) (f' c)) :
    R _ (Keywords.traverseOption f a) (Keywords.traverseOption f' a) := by
  cases a with
  | none => exact hR.pure none
  | some c => exact hR.bind (h c rfl) fun _ => hR.pure _

variable [LawfulMonad m] {k : Keywords α} {f f' : Place → α → m β}

lemma entries {place : String → Place} {entries : List (String × α)}
    (h : ∀ name a, (name, a) ∈ entries → R _ (f (place name) a) (f' (place name) a)) :
    R _ (Keywords.traverseEntries (fun name => f (place name)) entries)
      (Keywords.traverseEntries (fun name => f' (place name)) entries) := by
  apply hR.mapM
  rintro ⟨name, a⟩ hmem
  exact hR.bind (h name a hmem) fun _ => hR.pure _

lemma list {place : ℕ → Place} {as : List α}
    (h : ∀ i a, as[i]? = some a → R _ (f (place i) a) (f' (place i) a)) :
    R _ (Keywords.traverseList (fun i => f (place i)) as)
      (Keywords.traverseList (fun i => f' (place i)) as) := by
  apply hR.mapM
  rintro ⟨a, i⟩ hmem
  exact h i a (List.mem_zipIdx_iff_getElem?.mp hmem)

lemma traverse (h : ∀ place a, (place, a) ∈ k.children → R _ (f place a) (f' place a)) :
    R _ (k.traverse f) (k.traverse f') := by
  have hchild {place : Place} {a : α} (hmem : k.Child place a) : R _ (f place a) (f' place a) :=
    h place a hmem.mem_children
  have hdefinitions {group : Section} {entries : List (String × α)}
      (hgroup : (group, entries) ∈ k.sections) :
      R _ (Keywords.traverseEntries (fun name => f (.definition group name)) entries)
        (Keywords.traverseEntries (fun name => f' (.definition group name)) entries) :=
    hR.entries fun name a hmem => hchild (.definition hgroup hmem)
  refine hR.bind (hdefinitions (by simp [Keywords.sections])) fun _ => ?_
  refine hR.bind (hdefinitions (by simp [Keywords.sections])) fun _ => ?_
  refine hR.bind (hR.option fun entries hentries => ?_) fun _ => ?_
  · exact hdefinitions (by simp [Keywords.sections, hentries])
  refine hR.bind (hR.entries fun name a hmem => hchild (.property hmem)) fun _ => ?_
  refine hR.bind (hR.entries fun regex a hmem => hchild (.pattern hmem)) fun _ => ?_
  refine hR.bind ?_ fun _ => ?_
  · rcases hadditional : k.additional with _ | flag | a
    · exact hR.pure none
    · exact hR.pure _
    · exact hR.bind (hchild (.additional hadditional)) fun _ => hR.pure _
  refine hR.bind (hR.option fun a ha => hchild (.dictionaryKey ha)) fun _ => ?_
  refine hR.bind ?_ fun _ => ?_
  · rcases hitems : k.items with _ | a | as
    · exact hR.pure none
    · exact hR.bind (hchild (.each hitems)) fun _ => hR.pure _
    · exact hR.bind (hR.list fun i a ha => hchild (.tuple hitems ha)) fun _ => hR.pure _
  refine hR.bind (hR.list fun i a ha => hchild (.allOf ha)) fun _ => ?_
  refine hR.bind (hR.list fun i a ha => hchild (.anyOf ha)) fun _ => ?_
  refine hR.bind (hR.mapM ?_) fun _ => hR.pure _
  rintro ⟨entry, i⟩ hmem
  refine hR.option fun a ha => hchild (.oneOf ?_)
  rw [← ha]
  exact List.mem_zipIdx_iff_getElem?.mp hmem

end IsCongruence

end SchemaTypes
