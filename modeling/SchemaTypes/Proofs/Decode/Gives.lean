import SchemaTypes.Decode.Source
import Mathlib.Tactic.Common

/-! What the results of reading are made of. An action gives a result if it can have it somewhere
in some text or value. -/

namespace SchemaTypes.Decode

/-- A monad whose actions can be said to give a result. -/
class Gives (m : Type → Type) [Monad m] where
  gives {α : Type} : m α → α → Prop
  pure {α : Type} {a b : α} : gives (pure a) b → b = a
  bind {α β : Type} {x : m α} {f : α → m β} {b : β} :
    gives (x >>= f) b → ∃ a, gives x a ∧ gives (f a) b

export Gives (gives)

instance : Gives Option where
  gives x a := x = some a
  pure h := (Option.some.inj h).symm
  bind h := Option.bind_eq_some_iff.mp h

instance {ε : Type} : Gives (Except ε) where
  gives x a := x = .ok a
  pure h := (Except.ok.inj h).symm
  bind := by
    intro α β x f b h
    cases x with
    | error e => cases h
    | ok a => exact ⟨a, rfl, h⟩

section

variable {m : Type → Type} [Monad m] [Gives m]

instance {ρ : Type} : Gives (ReaderT ρ m) where
  gives x a := ∃ r, gives (x r) a
  pure := by
    rintro α a b ⟨r, h⟩
    exact Gives.pure h
  bind := by
    rintro α β x f b ⟨r, h⟩
    obtain ⟨a, ha, hb⟩ := Gives.bind h
    exact ⟨a, ⟨r, ha⟩, r, hb⟩

instance {σ : Type} : Gives (StateT σ m) where
  gives x a := ∃ s t, gives (x s) (a, t)
  pure := by
    rintro α a b ⟨s, t, h⟩
    exact (Prod.mk.inj (Gives.pure h)).1
  bind := by
    rintro α β x f b ⟨s, u, h⟩
    obtain ⟨⟨a, t⟩, ha, hb⟩ := Gives.bind h
    exact ⟨a, ⟨s, t, ha⟩, t, u, hb⟩

lemma gives_mapM [LawfulMonad m] {α β : Type} {f : α → m β} {as : List α} {bs : List β}
    (h : gives (as.mapM f) bs) : ∀ b ∈ bs, ∃ a ∈ as, gives (f a) b := by
  induction as generalizing bs with
  | nil =>
    rw [List.mapM_nil] at h
    rw [Gives.pure h]
    simp
  | cons a as ih =>
    rw [List.mapM_cons] at h
    obtain ⟨b, hb, h⟩ := Gives.bind h
    obtain ⟨bs', hbs, h⟩ := Gives.bind h
    rw [Gives.pure h]
    intro c hc
    rcases List.mem_cons.mp hc with rfl | hc
    · exact ⟨a, List.mem_cons_self, hb⟩
    · obtain ⟨a', ha', hgives⟩ := ih hbs c hc
      exact ⟨a', List.mem_cons_of_mem a ha', hgives⟩

end

end SchemaTypes.Decode
