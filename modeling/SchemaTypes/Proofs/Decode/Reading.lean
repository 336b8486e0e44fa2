import SchemaTypes.Proofs.Json.Nesting
import Mathlib.Data.List.Forall2

/-! Values are read back from what they are written as. Each operation of a source that stands at a
value as it is written gives what was written. -/

namespace SchemaTypes.Decode

/-- Entries taken one after another, each of which leads from one state to the next. -/
inductive Taken {σ : Type} (takes : String → Json → σ → σ → Prop) :
    σ → List (String × Json) → σ → Prop
  | nil (s : σ) : Taken takes s [] s
  | cons {name : String} {j : Json} {rest : List (String × Json)} {s t u : σ}
    (h : takes name j s t) (hrest : Taken takes t rest u) : Taken takes s ((name, j) :: rest) u

section

variable {σ : Type} {takes takes' : String → Json → σ → σ → Prop} {s t u : σ}
  {entries more : List (String × Json)}

lemma Taken.append (h : Taken takes s entries t) (hmore : Taken takes t more u) :
    Taken takes s (entries ++ more) u := by
  induction h with
  | nil => exact hmore
  | cons h _ ih => exact .cons h (ih hmore)

lemma Taken.mono (h : Taken takes s entries t)
    (hmono : ∀ entry ∈ entries, ∀ s t, takes entry.1 entry.2 s t → takes' entry.1 entry.2 s t) :
    Taken takes' s entries t := by
  induction h with
  | nil => exact .nil _
  | cons h _ ih =>
    obtain ⟨hfirst, hrest⟩ := List.forall_mem_cons.mp hmono
    exact .cons (hfirst _ _ h) (ih hrest)

end

/-- A source that reads back what is written: `reads n j x a` says that `x` gives `a` where `j`
is written and `n` levels may be entered. -/
class Reading (m : Type → Type) [Source m] where
  reads {α : Type} : ℕ → Json → m α → α → Prop
  /-- The values that can be read with nothing known of their shape. -/
  legible : ℕ → Json → Prop
  nests {n : ℕ} {j : Json} : legible n j → j.Nests n
  legible_items {n : ℕ} {items : List Json} : legible n (.array items) →
    ∃ below, n = below + 1 ∧ ∀ item ∈ items, legible below item
  legible_entries {n : ℕ} {entries : List (String × Json)} : legible n (.object entries) →
    ∃ below, n = below + 1 ∧ ∀ entry ∈ entries, legible below entry.2
  bind {α β : Type} {n : ℕ} {j : Json} {x : m α} {f : α → m β} {a : α} {b : β} :
    reads n j x a → f a = pure b → reads n j (x >>= f) b
  text {n : ℕ} {s : String} : reads n (.string s) (Source.text : m String) s
  flag {n : ℕ} {b : Bool} : reads n (.bool b) (Source.flag : m Bool) b
  choice {n : ℕ} {names : List String} {s : String} :
    s ∈ names → reads n (.string s) (Source.choice names : m String) s
  null {α : Type} {n : ℕ} {x : m α} : reads n .null (Source.optional x) none
  optional {α : Type} {n : ℕ} {j : Json} {x : m α} {a : α} :
    j.isNull = false → reads n j x a → reads n j (Source.optional x) (some a)
  list {α : Type} {n : ℕ} {items : List Json} {x : m α} {as : List α} :
    List.Forall₂ (fun item a => reads n item x a) items as →
      reads (n + 1) (.array items) (Source.list x) as
  entries {α : Type} {n : ℕ} {entries : List (String × Json)} {x : m α} {es : List (String × α)} :
    List.Forall₂ (fun entry e => entry.1 = e.1 ∧ reads n entry.2 x e.2) entries es →
      reads (n + 1) (.object entries) (Source.entries x) es
  keywords {σ : Type} {n : ℕ} {entries : List (String × Json)} {name : String}
    {objection : String → σ → Option Problem} {step : String → σ → m σ} {s t : σ} :
    Taken (fun name j s t => objection name s = none ∧ reads n j (step name s) t) s entries t →
      reads (n + 1) (.object entries) (Source.keywords name objection step s) t
  record {σ : Type} {n : ℕ} {entries : List (String × Json)} {name : String} {names : List String}
    {objection : String → σ → Option Problem} {step : String → σ → m σ} {s t : σ} :
    (∀ entry ∈ entries, entry.1 ∈ names) →
      Taken (fun name j s t => objection name s = none ∧ reads n j (step name s) t) s entries t →
        reads (n + 1) (.object entries) (Source.record name names objection step s) t
  raw {n : ℕ} {j : Json} : legible n j → reads n j (Source.raw : m Raw) (ValueReader.raw j)
  json {n levels : ℕ} {j : Json} : legible n j → j.Canonical levels →
    reads n j (Source.json : m Json) j

export Reading (reads legible)

section

variable {m : Type → Type} [Source m] [Reading m] {n : ℕ} {j : Json}

lemma reads_oneOf {α : Type} {name : String} {decode : Raw → Option α} {a : α}
    (hj : legible m n j) (h : decode (ValueReader.raw j) = some a) :
    reads n j (oneOf name decode : m α) a := by
  refine Reading.bind (Reading.raw hj) ?_
  simp only [h]

/-- Steps that note what they have read take the same entries, since no key comes twice. -/
lemma Taken.marked {σ : Type} {entries : List (String × Json)} {step : String → σ → m σ} {s t : σ}
    {objection : String → List String × σ → Option Problem}
    (hobjection : ∀ name seen s, name ∉ seen → objection name (seen, s) = none)
    (hnodup : (entries.map (·.1)).Nodup)
    (h : Taken (fun name j s t => reads n j (step name s) t) s entries t) :
    ∃ marked, Taken (fun name j s t => objection name s = none ∧ reads n j (marking step name s) t)
      ([], s) entries (marked, t) := by
  have hmarked {seen : List String} (hseen : ∀ entry ∈ entries, entry.1 ∉ seen) :
      ∃ marked, Taken (fun name j s t => objection name s = none ∧
        reads n j (marking step name s) t) (seen, s) entries (marked, t) := by
    induction h generalizing seen with
    | nil => exact ⟨seen, .nil _⟩
    | @cons name j rest s t u hstep _ ih =>
      obtain ⟨hfirst, hrest⟩ := List.forall_mem_cons.mp hseen
      obtain ⟨hnot, hnodup⟩ := List.nodup_cons.mp hnodup
      obtain ⟨marked, htaken⟩ := @ih hnodup (name :: seen) fun entry hentry => by
        rw [List.mem_cons, not_or]
        exact ⟨fun heq => hnot (List.mem_map.mpr ⟨entry, hentry, heq⟩), hrest entry hentry⟩
      exact ⟨marked, .cons ⟨hobjection name seen s hfirst, Reading.bind hstep rfl⟩ htaken⟩
  exact hmarked fun _ _ => List.not_mem_nil

lemma repetition_fresh {σ : Type} {name : String} {seen : List String} {s : σ} (h : name ∉ seen) :
    repetition name (seen, s) = none := by
  rw [repetition, if_neg (by simpa using h)]

lemma reads_fields {σ : Type} {entries : List (String × Json)} {name : String}
    {names : List String} {step : String → σ → m σ} {s t : σ}
    (hnames : ∀ entry ∈ entries, entry.1 ∈ names) (hnodup : (entries.map (·.1)).Nodup)
    (h : Taken (fun name j s t => reads n j (step name s) t) s entries t) :
    reads (n + 1) (.object entries) (fields name names step s) t := by
  obtain ⟨marked, htaken⟩ := h.marked (fun _ _ _ => repetition_fresh) hnodup
  exact Reading.bind (Reading.record hnames htaken) rfl

end

namespace RawReader

open ValueReader

lemma mapM_raw {α : Type} {x : Raw → Option α} {items : List Json} {as : List α}
    (h : List.Forall₂ (fun item a => x (raw item) = some a) items as) :
    (items.map raw).mapM x = some as := by
  induction h with
  | nil => rfl
  | cons hfirst _ ih =>
    rw [List.map_cons, List.mapM_cons, hfirst, ih]
    rfl

lemma entries_raw {α : Type} {x : RawReader α} {entries : List (String × Json)}
    {es : List (String × α)}
    (h : List.Forall₂ (fun entry e => entry.1 = e.1 ∧ x (raw entry.2) = some e.2) entries es) :
    (Source.entries x : RawReader (List (String × α))) (raw (.object entries)) = some es := by
  rw [raw_object]
  change List.mapM _ _ = _
  induction h with
  | nil => rfl
  | cons hfirst _ ih =>
    obtain ⟨hkey, hvalue⟩ := hfirst
    rw [List.map_cons, List.mapM_cons, ih]
    simp only [Raw.key?, hvalue, hkey, bind_pure_comp, Option.bind_eq_bind, Option.bind_some]
    rfl

section

variable {σ : Type} {names : List String} {step : String → Raw → σ → Option σ} {s : σ}

lemma fieldSteps_append (entries more : List (Raw × Raw)) :
    fieldSteps names step (entries ++ more) s =
      (fieldSteps names step entries s).bind (fieldSteps names step more) := by
  induction entries generalizing s with
  | nil => rfl
  | cons entry rest ih =>
    rw [List.cons_append, fieldSteps, fieldSteps]
    cases field? names entry.1 with
    | none => rfl
    | some field =>
      cases field with
      | none => exact ih
      | some name =>
        simp only [Option.bind_eq_bind, Option.bind_some, ih, Option.bind_assoc]

lemma fieldSteps_unknown {entries : List (String × Json)}
    (h : ∀ entry ∈ entries, entry.1 ∉ names) :
    fieldSteps names step (entries.map fun entry => (.text entry.1, raw entry.2)) s =
      some s := by
  induction entries with
  | nil => rfl
  | cons entry rest ih =>
    obtain ⟨hfirst, hrest⟩ := List.forall_mem_cons.mp h
    have hfield : field? names (.text entry.1) = some none := by
      rw [field?, if_neg (by simpa using hfirst)]
    rw [List.map_cons, fieldSteps, hfield]
    exact ih hrest

end

section

variable {σ : Type} {objection : String → σ → Option Problem} {step : String → σ → RawReader σ}
  {entries : List (String × Json)} {s t : σ}

lemma stepUnless_raw {name : String} {r : Raw}
    (h : objection name s = none ∧ step name s r = some t) :
    stepUnless objection step name r s = some t := by
  rw [stepUnless, h.1]
  exact h.2

variable
  (h : Taken (fun name j s t => objection name s = none ∧ step name s (raw j) = some t) s entries t)

include h

lemma mapSteps_raw :
    mapSteps (stepUnless objection step)
      (entries.map fun entry => (.text entry.1, raw entry.2)) s = some t := by
  induction h with
  | nil => rfl
  | cons hfirst _ ih =>
    rw [List.map_cons, mapSteps, Raw.key?]
    simp only [stepUnless_raw hfirst, Option.bind_eq_bind, Option.bind_some]
    exact ih

lemma fieldSteps_raw {names : List String} (hnames : ∀ entry ∈ entries, entry.1 ∈ names) :
    fieldSteps names (stepUnless objection step)
      (entries.map fun entry => (.text entry.1, raw entry.2)) s = some t := by
  induction h with
  | nil => rfl
  | @cons name _ _ _ _ _ hfirst _ ih =>
    obtain ⟨hname, hrest⟩ := List.forall_mem_cons.mp hnames
    have hfield : field? names (.text name) = some (some name) := by
      rw [field?, if_pos (by simpa using hname)]
    rw [List.map_cons, fieldSteps, hfield]
    simp only [stepUnless_raw hfirst, Option.bind_eq_bind, Option.bind_some]
    exact ih hrest

end

instance : Reading RawReader where
  reads _ j x a := x (raw j) = some a
  legible n j := j.Nests n
  nests h := h
  legible_items h := h.items
  legible_entries h := h.entries
  bind hx hf := by
    change Option.bind _ _ = _
    rw [hx, Option.bind_some, hf]
    rfl
  text := rfl
  flag := rfl
  choice h := if_pos (by simpa using h)
  null := rfl
  optional := by
    intro α n j x a hnull hx
    cases j
    case null => cases hnull
    all_goals exact congrArg (Option.map some) hx
  list h := by
    rw [raw_array]
    exact mapM_raw h
  entries h := entries_raw h
  keywords h := by
    rw [raw_object]
    exact mapSteps_raw h
  record hnames h := by
    rw [raw_object]
    exact fieldSteps_raw h hnames
  raw _ := rfl
  json _ hj := Raw.json_raw hj

end RawReader

end SchemaTypes.Decode
