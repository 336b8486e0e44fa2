import SchemaTypes.Proofs.Decode.Levels
import SchemaTypes.Yaml.Reader

/-! The results of the composed operations of a source come from results of the actions that they
are composed of. -/

namespace SchemaTypes.Decode

class Results (m : Type → Type) [Source m] [Gives m] : Prop where
  refuse {α : Type} {problem : Problem} {a : α} :
    ¬gives (Source.refuse problem : m α) a
  optional {α : Type} {x : m α} {a : α} : gives (Source.optional x) (some a) → gives x a
  list {α : Type} {x : m α} {as : List α} : gives (Source.list x) as → ∀ a ∈ as, gives x a
  entries {α : Type} {x : m α} {es : List (String × α)} :
    gives (Source.entries x) es → ∀ e ∈ es, gives x e.2
  keywords {σ : Type} {name : String} {objection : String → σ → Option Problem}
    {step : String → σ → m σ} {start state : σ} (I : σ → Prop) (hstart : I start)
    (hstep : ∀ key s t, I s → gives (step key s) t → I t) :
    gives (Source.keywords name objection step start) state → I state
  record {σ : Type} {name : String} {names : List String}
    {objection : String → σ → Option Problem} {step : String → σ → m σ} {start state : σ}
    (I : σ → Prop) (hstart : I start) (hstep : ∀ key s t, I s → gives (step key s) t → I t) :
    gives (Source.record name names objection step start) state → I state

section

variable {m : Type → Type} [Source m] [Gives m] [GivesAt m] [Levels m]

lemma Results.of_levels (h : ∀ {α : Type} {x : m α} {a : α}, gives x a ↔ ∃ n, givesAt n x a) :
    Results m where
  refuse hgives := by
    obtain ⟨n, hn⟩ := h.mp hgives
    exact Levels.refuse hn
  optional hgives := by
    obtain ⟨n, hn⟩ := h.mp hgives
    exact h.mpr ⟨n, Levels.optional hn⟩
  list hgives a ha := by
    obtain ⟨n, hn⟩ := h.mp hgives
    obtain ⟨below, _, hall⟩ := Levels.list hn
    exact h.mpr ⟨below, hall a ha⟩
  entries hgives e he := by
    obtain ⟨n, hn⟩ := h.mp hgives
    obtain ⟨below, _, hall⟩ := Levels.entries hn
    exact h.mpr ⟨below, hall e he⟩
  keywords I hstart hstep hgives := by
    obtain ⟨n, hn⟩ := h.mp hgives
    obtain ⟨below, _, hkept⟩ := Levels.keywords hn
    exact hkept I hstart fun key s t hs ht => hstep key s t hs (h.mpr ⟨below, ht⟩)
  record I hstart hstep hgives := by
    obtain ⟨n, hn⟩ := h.mp hgives
    obtain ⟨below, _, hkept⟩ := Levels.record hn
    exact hkept I hstart fun key s t hs ht => hstep key s t hs (h.mpr ⟨below, ht⟩)

end

instance : Results RawReader := by
  refine Results.of_levels fun {α x a} => ⟨?_, ?_⟩
  · rintro ⟨r, h⟩
    exact ⟨r.depth, r, Nat.le_refl _, h⟩
  · rintro ⟨n, r, _, h⟩
    exact ⟨r, h⟩

instance : Results JsonReader := Results.of_levels Iff.rfl

end SchemaTypes.Decode

namespace SchemaTypes.Yaml.Reader

open Decode

variable {α σ : Type} {x : Reader α} {a : α}

lemma not_gives_refuse : ¬gives (refuse : Reader α) a := by
  rintro ⟨place, followed, rest, h⟩
  cases h

lemma gives_of_atNode {node : Node} (h : gives (atNode node x) a) : gives x a := by
  obtain ⟨place, h⟩ := h
  exact ⟨{ place with node }, h⟩

lemma gives_of_below (h : gives (below x) a) : gives x a := by
  obtain ⟨place, followed, rest, h⟩ := h
  cases hlevels : place.levels with
  | zero =>
    simp only [below, hlevels] at h
    cases h
  | succ levels =>
    simp only [below, hlevels] at h
    exact ⟨_, followed, rest, h⟩

lemma gives_of_optional (h : gives (optional x) (some a)) : gives x a := by
  obtain ⟨node, _, h⟩ := Gives.bind h
  split at h
  · obtain ⟨a, ha, h⟩ := Gives.bind h
    cases Gives.pure h
    exact gives_of_atNode ha
  · cases Gives.pure h
  · exact (not_gives_refuse h).elim

lemma gives_of_list {as : List α} (h : gives (list x) as) : ∀ a ∈ as, gives x a := by
  obtain ⟨node, _, h⟩ := Gives.bind h
  split at h
  · intro a ha
    obtain ⟨item, _, hitem⟩ := gives_mapM (gives_of_below h) a ha
    exact gives_of_atNode hitem
  · split at h
    · rw [Gives.pure h]
      simp
    · exact (not_gives_refuse h).elim
  · exact (not_gives_refuse h).elim

lemma gives_of_entries {es : List (String × α)} (h : gives (entries x) es) :
    ∀ e ∈ es, gives x e.2 := by
  obtain ⟨found, _, h⟩ := Gives.bind h
  intro e he
  obtain ⟨⟨key, value⟩, _, hentry⟩ := gives_mapM (gives_of_below h) e he
  obtain ⟨name, _, hentry⟩ := Gives.bind hentry
  obtain ⟨a, ha, hentry⟩ := Gives.bind hentry
  rw [Gives.pure hentry]
  exact gives_of_atNode ha

lemma steps_keeps {objection : String → σ → Option Problem} {step : String → σ → Reader σ}
    {I : σ → Prop} (hstep : ∀ key s t, I s → gives (step key s) t → I t)
    {found : List (Node × Node)} {start state : σ} (hstart : I start)
    (h : gives (steps objection step found start) state) : I state := by
  induction found generalizing start with
  | nil =>
    rw [Gives.pure h]
    exact hstart
  | cons entry rest ih =>
    obtain ⟨name, _, h⟩ := Gives.bind h
    split at h
    · exact (not_gives_refuse h).elim
    · obtain ⟨next, hnext, h⟩ := Gives.bind h
      exact ih (hstep name start next hstart (gives_of_atNode hnext)) h

lemma keywords_keeps {objection : String → σ → Option Problem} {step : String → σ → Reader σ}
    {start state : σ} (I : σ → Prop) (hstart : I start)
    (hstep : ∀ key s t, I s → gives (step key s) t → I t)
    (h : gives (keywords objection step start) state) : I state := by
  obtain ⟨found, _, h⟩ := Gives.bind h
  exact steps_keeps hstep hstart (gives_of_below h)

lemma record_keeps {names : List String} {objection : String → σ → Option Problem}
    {step : String → σ → Reader σ} {start state : σ} (I : σ → Prop) (hstart : I start)
    (hstep : ∀ key s t, I s → gives (step key s) t → I t)
    (h : gives (record names objection step start) state) : I state := by
  refine keywords_keeps I hstart (fun key s t hs ht => ?_) h
  split at ht
  · exact hstep key s t hs ht
  · rw [Gives.pure ht]
    exact hs

instance : Results Reader where
  refuse := not_gives_refuse
  optional := gives_of_optional
  list := gives_of_list
  entries := gives_of_entries
  keywords := keywords_keeps
  record := record_keeps

end SchemaTypes.Yaml.Reader
