import SchemaTypes.Decode.RawSource
import SchemaTypes.Json.Reader
import SchemaTypes.Proofs.Decode.Gives
import SchemaTypes.Proofs.Except

/-! Reading counts how deep lists and objects nest. An action gives a result at a number of levels
if it can have it somewhere where that many may be entered; what stands inside a list or an object
is read at one level less. -/

namespace SchemaTypes.Decode

class GivesAt (m : Type → Type) [Monad m] where
  givesAt {α : Type} : ℕ → m α → α → Prop
  pure {α : Type} {n : ℕ} {a b : α} : givesAt n (pure a) b → b = a
  bind {α β : Type} {n : ℕ} {x : m α} {f : α → m β} {b : β} :
    givesAt n (x >>= f) b → ∃ a, givesAt n x a ∧ givesAt n (f a) b

export GivesAt (givesAt)

class Levels (m : Type → Type) [Source m] [GivesAt m] : Prop where
  refuse {α : Type} {n : ℕ} {problem : Problem} {a : α} :
    ¬givesAt n (Source.refuse problem : m α) a
  optional {α : Type} {n : ℕ} {x : m α} {a : α} :
    givesAt n (Source.optional x) (some a) → givesAt n x a
  list {α : Type} {n : ℕ} {x : m α} {as : List α} : givesAt n (Source.list x) as →
    ∃ below, n = below + 1 ∧ ∀ a ∈ as, givesAt below x a
  entries {α : Type} {n : ℕ} {x : m α} {es : List (String × α)} :
    givesAt n (Source.entries x) es → ∃ below, n = below + 1 ∧ ∀ e ∈ es, givesAt below x e.2
  keywords {σ : Type} {n : ℕ} {name : String} {objection : String → σ → Option Problem}
    {step : String → σ → m σ} {start state : σ} :
    givesAt n (Source.keywords name objection step start) state →
      ∃ below, n = below + 1 ∧ ∀ I : σ → Prop, I start →
        (∀ key s t, I s → givesAt below (step key s) t → I t) → I state
  record {σ : Type} {n : ℕ} {name : String} {names : List String}
    {objection : String → σ → Option Problem} {step : String → σ → m σ} {start state : σ} :
    givesAt n (Source.record name names objection step start) state →
      ∃ below, n = below + 1 ∧ ∀ I : σ → Prop, I start →
        (∀ key s t, I s → givesAt below (step key s) t → I t) → I state
  raw {n : ℕ} {r : Raw} : givesAt n (Source.raw : m Raw) r → r.depth ≤ n
  json {n : ℕ} {j : Json} : givesAt n (Source.json : m Json) j →
    ∃ r : Raw, r.depth ≤ n ∧ r.json?.getD .null = j

namespace Raw

variable {n : ℕ}

lemma itemsDepth_le_iff {items : List Raw} :
    itemsDepth items ≤ n ↔ ∀ item ∈ items, item.depth ≤ n := by
  induction items with
  | nil => simp [itemsDepth]
  | cons item rest ih => rw [itemsDepth, Nat.max_le, ih, List.forall_mem_cons]

lemma entriesDepth_le_iff {entries : List (Raw × Raw)} :
    entriesDepth entries ≤ n ↔ ∀ entry ∈ entries, entry.1.depth ≤ n ∧ entry.2.depth ≤ n := by
  induction entries with
  | nil => simp [entriesDepth]
  | cons entry rest ih =>
    rw [entriesDepth, Nat.max_le, Nat.max_le, ih, List.forall_mem_cons, and_assoc]

lemma list_depth {items : List Raw} (h : (list items).depth ≤ n) :
    ∃ below, n = below + 1 ∧ ∀ item ∈ items, item.depth ≤ below := by
  rw [depth] at h
  cases n with
  | zero => omega
  | succ below => exact ⟨below, rfl, itemsDepth_le_iff.mp (by omega)⟩

lemma map_depth {entries : List (Raw × Raw)} (h : (map entries).depth ≤ n) :
    ∃ below, n = below + 1 ∧ ∀ entry ∈ entries, entry.2.depth ≤ below := by
  rw [depth] at h
  cases n with
  | zero => omega
  | succ below =>
    have hentries := entriesDepth_le_iff.mp (Nat.le_of_succ_le_succ h)
    exact ⟨below, rfl, fun entry hentry => (hentries entry hentry).2⟩

end Raw

instance : GivesAt RawReader where
  givesAt n x a := ∃ r : Raw, r.depth ≤ n ∧ x r = some a
  pure := by
    rintro α n a b ⟨r, _, h⟩
    exact Gives.pure (m := Option) h
  bind := by
    rintro α β n x f b ⟨r, hr, h⟩
    obtain ⟨a, ha, hb⟩ := Gives.bind (m := Option) h
    exact ⟨a, ⟨r, hr, ha⟩, r, hr, hb⟩

namespace RawReader

variable {σ : Type} {objection : String → σ → Option Problem} {step : String → σ → RawReader σ}
  {I : σ → Prop} {n : ℕ} (hstep : ∀ key s t, I s → givesAt n (step key s) t → I t) {start state : σ}

include hstep

lemma stepUnless_keeps {key : String} {r : Raw} (hr : r.depth ≤ n) (hstart : I start)
    (h : stepUnless objection step key r start = some state) : I state := by
  rw [stepUnless] at h
  split at h
  · cases h
  · exact hstep key start state hstart ⟨r, hr, h⟩

lemma mapSteps_keeps {entries : List (Raw × Raw)} (hentries : ∀ entry ∈ entries, entry.2.depth ≤ n)
    (hstart : I start) (h : mapSteps (stepUnless objection step) entries start = some state) :
    I state := by
  induction entries generalizing start with
  | nil =>
    cases h
    exact hstart
  | cons entry rest ih =>
    obtain ⟨hentry, hrest⟩ := List.forall_mem_cons.mp hentries
    obtain ⟨key, _, h⟩ := Option.bind_eq_some_iff.mp h
    obtain ⟨next, hnext, h⟩ := Option.bind_eq_some_iff.mp h
    exact ih hrest (stepUnless_keeps hstep hentry hstart hnext) h

lemma fieldSteps_keeps {names : List String} {entries : List (Raw × Raw)}
    (hentries : ∀ entry ∈ entries, entry.2.depth ≤ n) (hstart : I start)
    (h : fieldSteps names (stepUnless objection step) entries start = some state) : I state := by
  induction entries generalizing start with
  | nil =>
    cases h
    exact hstart
  | cons entry rest ih =>
    obtain ⟨hentry, hrest⟩ := List.forall_mem_cons.mp hentries
    obtain ⟨field, _, h⟩ := Option.bind_eq_some_iff.mp h
    cases field with
    | none => exact ih hrest hstart h
    | some key =>
      obtain ⟨next, hnext, h⟩ := Option.bind_eq_some_iff.mp h
      exact ih hrest (stepUnless_keeps hstep hentry hstart hnext) h

lemma positionSteps_keeps {names : List String} {items : List Raw}
    (hitems : ∀ item ∈ items, item.depth ≤ n) (hstart : I start)
    (h : positionSteps (stepUnless objection step) names items start = some state) : I state := by
  induction items generalizing names start with
  | nil =>
    cases names <;> cases h <;> exact hstart
  | cons item rest ih =>
    obtain ⟨hitem, hrest⟩ := List.forall_mem_cons.mp hitems
    cases names with
    | nil => cases h
    | cons name names =>
      obtain ⟨next, hnext, h⟩ := Option.bind_eq_some_iff.mp h
      exact ih hrest (stepUnless_keeps hstep hitem hstart hnext) h

end RawReader

open RawReader in
instance : Levels RawReader where
  refuse := by
    rintro α n problem a ⟨r, _, h⟩
    cases h
  optional := by
    rintro α n x a ⟨r, hr, h⟩
    cases r
    case null => cases h
    all_goals
      obtain ⟨a', ha', heq⟩ := Option.map_eq_some_iff.mp h
      cases heq
      exact ⟨_, hr, ha'⟩
  list := by
    rintro α n x as ⟨r, hr, h⟩
    cases r
    case list items =>
      obtain ⟨below, rfl, hitems⟩ := Raw.list_depth hr
      refine ⟨below, rfl, fun a ha => ?_⟩
      obtain ⟨item, hmem, hitem⟩ := gives_mapM (m := Option) h a ha
      exact ⟨item, hitems item hmem, hitem⟩
    all_goals cases h
  entries := by
    rintro α n x es ⟨r, hr, h⟩
    cases r
    case map entries =>
      obtain ⟨below, rfl, hentries⟩ := Raw.map_depth hr
      refine ⟨below, rfl, fun e he => ?_⟩
      obtain ⟨⟨key, value⟩, hmem, hentry⟩ := gives_mapM (m := Option) h e he
      obtain ⟨name, _, hentry⟩ := Gives.bind hentry
      obtain ⟨a, ha, heq⟩ := Gives.bind hentry
      cases heq
      exact ⟨value, hentries _ hmem, ha⟩
    all_goals cases h
  keywords := by
    rintro σ n name objection step start state ⟨r, hr, h⟩
    cases r
    case map entries =>
      obtain ⟨below, rfl, hentries⟩ := Raw.map_depth hr
      exact ⟨below, rfl, fun I hstart hstep => mapSteps_keeps hstep hentries hstart h⟩
    all_goals cases h
  record := by
    rintro σ n name names objection step start state ⟨r, hr, h⟩
    cases r
    case map entries =>
      obtain ⟨below, rfl, hentries⟩ := Raw.map_depth hr
      exact ⟨below, rfl, fun I hstart hstep => fieldSteps_keeps hstep hentries hstart h⟩
    case list items =>
      obtain ⟨below, rfl, hitems⟩ := Raw.list_depth hr
      exact ⟨below, rfl, fun I hstart hstep => positionSteps_keeps hstep hitems hstart h⟩
    all_goals cases h
  raw := by
    rintro n r ⟨r', hr, h⟩
    cases h
    exact hr
  json := by
    rintro n j ⟨r, hr, h⟩
    exact ⟨r, hr, by rw [show r.json? = some j from h]; rfl⟩

end SchemaTypes.Decode

namespace SchemaTypes.JsonReader

open Decode

instance : GivesAt JsonReader where
  givesAt n x a := gives (x n) a
  pure h := Gives.pure (m := StateT (List Char) (Except Problem)) h
  bind h := Gives.bind (m := StateT (List Char) (Except Problem)) h

variable {α σ : Type} {n : ℕ} {x : JsonReader α} {a : α}

lemma run_eq_ok {text : String} :
    run x text = .ok a ↔
      ∃ left, x levels text.toList = .ok (a, left) ∧ left.dropWhile isSpace = [] := by
  rw [run]
  constructor
  · intro h
    obtain ⟨⟨b, left⟩, hx, hend⟩ := Except.bind_eq_ok h
    change (if (left.dropWhile isSpace).isEmpty then Except.ok b else _) = _ at hend
    split at hend
    · cases hend
      exact ⟨left, hx, List.isEmpty_iff.mp ‹_›⟩
    · cases hend
  · rintro ⟨left, hx, hend⟩
    rw [hx]
    change (if (left.dropWhile isSpace).isEmpty then Except.ok a else _) = _
    rw [hend]
    rfl

lemma not_gives_refuse {p : Problem} : ¬givesAt n (refuse p : JsonReader α) a := by
  rintro ⟨cs, rest, h⟩
  cases h

lemma not_gives_mismatch {expected : String} {c : Char} :
    ¬givesAt n (mismatch expected c : JsonReader α) a := by
  intro h
  rw [mismatch] at h
  split at h
  · exact not_gives_refuse h
  · split at h
    · exact not_gives_refuse h
    · obtain ⟨_, _, h⟩ := GivesAt.bind h
      exact not_gives_refuse h

lemma gives_of_enter (h : givesAt n (enter x) a) : ∃ below, n = below + 1 ∧ givesAt below x a := by
  obtain ⟨cs, rest, h⟩ := h
  cases n with
  | zero => cases h
  | succ below => exact ⟨below, rfl, cs.drop 1, rest, h⟩

lemma gives_of_itemsWithin {first : Bool} {bound : ℕ} {as : List α}
    (h : givesAt n (itemsWithin x first bound) as) : ∀ a ∈ as, givesAt n x a := by
  induction bound generalizing first as with
  | zero => exact (not_gives_refuse h).elim
  | succ bound ih =>
    obtain ⟨more, _, h⟩ := GivesAt.bind h
    cases more with
    | false =>
      rw [GivesAt.pure h]
      simp
    | true =>
      obtain ⟨a, ha, h⟩ := GivesAt.bind h
      obtain ⟨rest, hrest, h⟩ := GivesAt.bind h
      rw [GivesAt.pure h]
      exact List.forall_mem_cons.mpr ⟨ha, ih hrest⟩

lemma gives_of_items {as : List α} (h : givesAt n (items x) as) :
    ∃ below, n = below + 1 ∧ ∀ a ∈ as, givesAt below x a := by
  obtain ⟨below, rfl, hinner⟩ := gives_of_enter h
  obtain ⟨_, _, h⟩ := GivesAt.bind hinner
  obtain ⟨found, hfound, h⟩ := GivesAt.bind h
  obtain ⟨_, _, h⟩ := GivesAt.bind h
  rw [GivesAt.pure h]
  exact ⟨below, rfl, gives_of_itemsWithin hfound⟩

lemma stepsWithin_keeps {objection : String → σ → Option Problem}
    {step : String → σ → JsonReader σ} {I : σ → Prop}
    (hstep : ∀ key s t, I s → givesAt n (step key s) t → I t) {first : Bool} {bound : ℕ}
    {start state : σ} (hstart : I start)
    (h : givesAt n (stepsWithin objection step first start bound) state) : I state := by
  induction bound generalizing first start with
  | zero => exact (not_gives_refuse h).elim
  | succ bound ih =>
    obtain ⟨more, _, h⟩ := GivesAt.bind h
    cases more with
    | false =>
      rw [GivesAt.pure h]
      exact hstart
    | true =>
      obtain ⟨name, _, h⟩ := GivesAt.bind h
      split at h
      · exact (not_gives_refuse h).elim
      · obtain ⟨_, _, h⟩ := GivesAt.bind h
        obtain ⟨next, hnext, h⟩ := GivesAt.bind h
        exact ih (hstep name start next hstart hnext) h

lemma steps_keeps {objection : String → σ → Option Problem} {step : String → σ → JsonReader σ}
    {start state : σ} (h : givesAt n (steps objection step start) state) :
    ∃ below, n = below + 1 ∧ ∀ I : σ → Prop, I start →
      (∀ key s t, I s → givesAt below (step key s) t → I t) → I state := by
  obtain ⟨below, rfl, hinner⟩ := gives_of_enter h
  obtain ⟨_, _, h⟩ := GivesAt.bind hinner
  obtain ⟨next, hnext, h⟩ := GivesAt.bind h
  obtain ⟨_, _, h⟩ := GivesAt.bind h
  rw [GivesAt.pure h]
  exact ⟨below, rfl, fun I hstart hstep => stepsWithin_keeps hstep hstart hnext⟩

lemma gives_of_pairs {es : List (String × α)} (h : givesAt n (pairs x) es) :
    ∃ below, n = below + 1 ∧ ∀ e ∈ es, givesAt below x e.2 := by
  obtain ⟨found, hfound, h⟩ := GivesAt.bind h
  rw [GivesAt.pure h]
  obtain ⟨below, rfl, hkept⟩ := steps_keeps hfound
  refine ⟨below, rfl, fun e he => ?_⟩
  refine hkept (fun found => ∀ e ∈ found, givesAt below x e.2) (by simp) ?_ e
    (List.mem_reverse.mp he)
  intro key s t hs ht
  obtain ⟨a, ha, ht⟩ := GivesAt.bind ht
  rw [GivesAt.pure ht]
  exact List.forall_mem_cons.mpr ⟨ha, hs⟩

lemma positions_keeps {step : String → σ → JsonReader σ} {I : σ → Prop}
    (hstep : ∀ key s t, I s → givesAt n (step key s) t → I t) {first : Bool} {names : List String}
    {start state : σ} (hstart : I start) (h : givesAt n (positions step first names start) state) :
    I state := by
  induction names generalizing first start with
  | nil =>
    obtain ⟨next, _, h⟩ := GivesAt.bind h
    split at h
    · exact (not_gives_refuse h).elim
    · rw [GivesAt.pure h]
      exact hstart
    · obtain ⟨_, _, h⟩ := GivesAt.bind h
      obtain ⟨_, _, h⟩ := GivesAt.bind h
      split at h <;> exact (not_gives_refuse h).elim
    · exact (not_gives_refuse h).elim
  | cons name names ih =>
    obtain ⟨more, _, h⟩ := GivesAt.bind h
    cases more with
    | false =>
      rw [GivesAt.pure h]
      exact hstart
    | true =>
      obtain ⟨next, hnext, h⟩ := GivesAt.bind h
      exact ih (hstep name start next hstart hnext) h

lemma gives_of_optional (h : givesAt n (optional x) (some a)) : givesAt n x a := by
  obtain ⟨next, _, h⟩ := GivesAt.bind h
  split at h
  · obtain ⟨_, _, h⟩ := GivesAt.bind h
    cases GivesAt.pure h
  · obtain ⟨a, ha, h⟩ := GivesAt.bind h
    cases GivesAt.pure h
    exact ha

lemma gives_of_list {as : List α} (h : givesAt n (list x) as) :
    ∃ below, n = below + 1 ∧ ∀ a ∈ as, givesAt below x a := by
  obtain ⟨c, _, h⟩ := GivesAt.bind h
  split at h
  · exact gives_of_items h
  · exact (not_gives_mismatch h).elim

lemma gives_of_entries {es : List (String × α)} (h : givesAt n (entries x) es) :
    ∃ below, n = below + 1 ∧ ∀ e ∈ es, givesAt below x e.2 := by
  obtain ⟨c, _, h⟩ := GivesAt.bind h
  split at h
  · exact gives_of_pairs h
  · exact (not_gives_mismatch h).elim

lemma keywords_keeps {name : String} {objection : String → σ → Option Problem}
    {step : String → σ → JsonReader σ} {start state : σ}
    (h : givesAt n (keywords name objection step start) state) :
    ∃ below, n = below + 1 ∧ ∀ I : σ → Prop, I start →
      (∀ key s t, I s → givesAt below (step key s) t → I t) → I state := by
  obtain ⟨c, _, h⟩ := GivesAt.bind h
  split at h
  · exact steps_keeps h
  · exact (not_gives_mismatch h).elim

lemma record_keeps {name : String} {names : List String}
    {objection : String → σ → Option Problem} {step : String → σ → JsonReader σ}
    {start state : σ} (h : givesAt n (record name names objection step start) state) :
    ∃ below, n = below + 1 ∧ ∀ I : σ → Prop, I start →
      (∀ key s t, I s → givesAt below (step key s) t → I t) → I state := by
  obtain ⟨c, _, h⟩ := GivesAt.bind h
  split at h
  · obtain ⟨below, rfl, hinner⟩ := gives_of_enter h
    obtain ⟨state, hstate, h⟩ := GivesAt.bind hinner
    obtain ⟨_, _, h⟩ := GivesAt.bind h
    rw [GivesAt.pure h]
    exact ⟨below, rfl, fun I hstart hstep => positions_keeps hstep hstart hstate⟩
  · split at h
    · obtain ⟨below, rfl, hkept⟩ := steps_keeps h
      refine ⟨below, rfl, fun I hstart hstep => hkept I hstart fun key s t hs ht => ?_⟩
      split at ht
      · exact hstep key s t hs ht
      · obtain ⟨_, _, ht⟩ := GivesAt.bind ht
        rw [GivesAt.pure ht]
        exact hs
    · exact (not_gives_mismatch h).elim

lemma rawScalar_depth (j : Json) : (rawScalar j).depth = 0 := by
  cases j <;> rfl

lemma rawWithin_depth {r : Raw} (h : givesAt n (rawWithin n) r) : r.depth ≤ n := by
  induction n generalizing r with
  | zero =>
    obtain ⟨c, _, h⟩ := GivesAt.bind h
    split at h
    · exact (not_gives_refuse h).elim
    · obtain ⟨j, _, h⟩ := GivesAt.bind h
      rw [GivesAt.pure h]
      exact Nat.le_of_eq (rawScalar_depth j)
  | succ n ih =>
    obtain ⟨c, _, h⟩ := GivesAt.bind h
    split at h
    · obtain ⟨found, hfound, h⟩ := GivesAt.bind h
      obtain ⟨below, hbelow, hfound⟩ := gives_of_items hfound
      cases hbelow
      rw [GivesAt.pure h, Raw.depth]
      exact Nat.succ_le_succ (Raw.itemsDepth_le_iff.mpr fun item hitem => ih (hfound item hitem))
    · split at h
      · obtain ⟨found, hfound, h⟩ := GivesAt.bind h
        obtain ⟨below, hbelow, hfound⟩ := gives_of_pairs hfound
        cases hbelow
        rw [GivesAt.pure h, Raw.depth]
        refine Nat.succ_le_succ (Raw.entriesDepth_le_iff.mpr fun entry hentry => ?_)
        obtain ⟨⟨name, value⟩, hmem, rfl⟩ := List.mem_map.mp hentry
        exact ⟨Nat.zero_le n, ih (hfound _ hmem)⟩
      · obtain ⟨j, _, h⟩ := GivesAt.bind h
        rw [GivesAt.pure h, rawScalar_depth]
        exact Nat.zero_le _

lemma raw_depth {r : Raw} (h : givesAt n raw r) : r.depth ≤ n := rawWithin_depth h

instance : Levels JsonReader where
  refuse := not_gives_refuse
  optional := gives_of_optional
  list := gives_of_list
  entries := gives_of_entries
  keywords := keywords_keeps
  record := record_keeps
  raw := raw_depth
  json h := by
    obtain ⟨r, hr, h⟩ := GivesAt.bind h
    exact ⟨r, raw_depth hr, (GivesAt.pure h).symm⟩

end SchemaTypes.JsonReader
