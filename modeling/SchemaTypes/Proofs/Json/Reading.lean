import SchemaTypes.Proofs.Decode.Reading
import SchemaTypes.Proofs.Json.Numbers

/-! JSON text reads back as the values that it was written for. -/

namespace SchemaTypes

open Decode Numeric Text

namespace Json

mutual

/-- The numbers in a value, at any depth. -/
def numbers : Json → List Json
  | int n => [.int n]
  | float x => [.float x]
  | array items => itemNumbers items
  | object entries => entryNumbers entries
  | _ => []

def itemNumbers : List Json → List Json
  | [] => []
  | item :: rest => numbers item ++ itemNumbers rest

def entryNumbers : List (String × Json) → List Json
  | [] => []
  | (_, value) :: rest => numbers value ++ entryNumbers rest

end

lemma mem_itemNumbers {x item : Json} {items : List Json} (hitem : item ∈ items)
    (h : x ∈ item.numbers) : x ∈ itemNumbers items := by
  induction items with
  | nil => cases hitem
  | cons first rest ih =>
    rw [itemNumbers, List.mem_append]
    rcases List.mem_cons.mp hitem with rfl | hitem
    · exact .inl h
    · exact .inr (ih hitem)

lemma mem_entryNumbers {x : Json} {entry : String × Json} {entries : List (String × Json)}
    (hentry : entry ∈ entries) (h : x ∈ entry.2.numbers) : x ∈ entryNumbers entries := by
  induction entries with
  | nil => cases hentry
  | cons first rest ih =>
    rw [entryNumbers, List.mem_append]
    rcases List.mem_cons.mp hentry with rfl | hentry
    · exact .inl h
    · exact .inr (ih hentry)

def isNumber : Json → Bool
  | int _ => true
  | float _ => true
  | _ => false

/-- Lists and objects nest at most so deep, and each number reads back from its own text. -/
structure Legible (n : ℕ) (j : Json) : Prop where
  nests : j.Nests n
  numbers : ∀ x ∈ j.numbers, parse x.compact = .ok x

lemma Legible.items {n : ℕ} {items : List Json} (h : Legible n (.array items)) :
    ∃ below, n = below + 1 ∧ ∀ item ∈ items, Legible below item := by
  obtain ⟨below, rfl, hitems⟩ := h.nests.items
  refine ⟨below, rfl, fun item hitem => ⟨hitems item hitem, fun x hx => ?_⟩⟩
  exact h.numbers x (mem_itemNumbers hitem hx)

lemma Legible.entries {n : ℕ} {entries : List (String × Json)} (h : Legible n (.object entries)) :
    ∃ below, n = below + 1 ∧ ∀ entry ∈ entries, Legible below entry.2 := by
  obtain ⟨below, rfl, hentries⟩ := h.nests.entries
  refine ⟨below, rfl, fun entry hentry => ⟨hentries entry hentry, fun x hx => ?_⟩⟩
  exact h.numbers x (mem_entryNumbers hentry hx)

lemma compactItems_cons (item : Json) (rest : List Json) :
    compactItems (item :: rest) =
      compactText item ++ rest.flatMap fun next => ',' :: compactText next := by
  induction rest generalizing item with
  | nil => simp [compactItems]
  | cons next rest ih => simp [compactItems, ih]

def entryText (entry : String × Json) : List Char :=
  jsonLiteral entry.1.toList ++ ':' :: compactText entry.2

lemma compactEntries_cons (entry : String × Json) (rest : List (String × Json)) :
    compactEntries (entry :: rest) =
      entryText entry ++ rest.flatMap fun next => ',' :: entryText next := by
  induction rest generalizing entry with
  | nil => simp [compactEntries, entryText]
  | cons next rest ih => simp [compactEntries, ih, entryText]

lemma ends_comma (rest : List Char) : Ends (',' :: rest) := by simp [Ends]

lemma ends_flatMap {α : Type} {closing : Char} (hclosing : closing = ']' ∨ closing = '}')
    (write : α → List Char) (as : List α) (rest : List Char) :
    Ends (as.flatMap (fun a => ',' :: write a) ++ closing :: rest) := by
  cases as with
  | nil =>
    intro c hc
    cases hc
    exact .inr hclosing
  | cons a as => exact ends_comma _

lemma length_le_flatMap {α : Type} (write : α → List Char) (as : List α) :
    as.length ≤ (as.flatMap fun a => ',' :: write a).length := by
  induction as with
  | nil => simp
  | cons a as ih =>
    rw [List.flatMap_cons, List.length_append, List.length_cons, List.length_cons]
    omega

/-- What a value starts with in text. -/
structure Starts (j : Json) (c : Char) : Prop where
  space : JsonReader.isSpace c = false
  bracket : c ≠ ']'
  null : c = 'n' → j.isNull

end Json

namespace JsonReader

open Json

variable {α β σ : Type} {n : ℕ} {cs rest : List Char} {c : Char}

lemma bind_ok {x : JsonReader α} {a : α} (h : x n cs = .ok (a, rest)) (f : α → JsonReader β) :
    (x >>= f) n cs = f a n rest := by
  change (x n cs >>= fun result => f result.1 n result.2) = _
  rw [h]
  rfl

lemma bind_eq_ok {x : JsonReader α} {f : α → JsonReader β} {b : β}
    (h : (x >>= f) n cs = .ok (b, rest)) :
    ∃ a left, x n cs = .ok (a, left) ∧ f a n left = .ok (b, rest) := by
  obtain ⟨⟨a, left⟩, hx, hf⟩ := Except.bind_eq_ok h
  exact ⟨a, left, hx, hf⟩

lemma peek_cons (h : isSpace c = false) : peek n (c :: cs) = .ok (some c, c :: cs) := by
  simp [peek, h]

lemma valueStart_cons (h : isSpace c = false) : valueStart n (c :: cs) = .ok (c, c :: cs) :=
  bind_ok (peek_cons h) _

lemma string_literal (s : String) : string n (jsonLiteral s.toList ++ rest) = .ok (s, rest) := by
  obtain ⟨body, hliteral, hscan⟩ := jsonLiteral_reads_back s.toList rest
  rw [hliteral]
  change (scanString [] (body ++ rest) >>= _) = _
  rw [hscan]
  change Except.ok (String.ofList s.toList, rest) = _
  rw [String.ofList_toList]

lemma moreItems_first (hspace : isSpace c = false) (hbracket : c ≠ ']') :
    moreItems true n (c :: cs) = .ok (true, c :: cs) := by
  rw [moreItems, bind_ok (peek_cons hspace)]
  split <;> simp_all
  rfl

lemma moreItems_later (hspace : isSpace c = false) (hbracket : c ≠ ']') :
    moreItems false n (',' :: c :: cs) = .ok (true, c :: cs) := by
  have hadvance : advance n (',' :: c :: cs) = .ok ((), c :: cs) := rfl
  rw [moreItems, bind_ok (peek_cons rfl)]
  change (advance >>= fun _ => _) n _ = _
  rw [bind_ok hadvance, bind_ok (peek_cons hspace)]
  simp only
  rfl

lemma moreItems_end (first : Bool) :
    moreItems first n (']' :: rest) = .ok (false, ']' :: rest) := by
  rw [moreItems, bind_ok (peek_cons rfl)]
  rfl

lemma moreEntries_first : moreEntries true n ('"' :: cs) = .ok (true, '"' :: cs) := by
  rw [moreEntries, bind_ok (peek_cons rfl)]
  rfl

lemma moreEntries_later : moreEntries false n (',' :: '"' :: cs) = .ok (true, '"' :: cs) := by
  have hadvance : advance n (',' :: '"' :: cs) = .ok ((), '"' :: cs) := rfl
  rw [moreEntries, bind_ok (peek_cons rfl)]
  change (advance >>= fun _ => _) n _ = _
  rw [bind_ok hadvance, bind_ok (peek_cons rfl)]
  rfl

lemma moreEntries_end (first : Bool) :
    moreEntries first n ('}' :: rest) = .ok (false, '}' :: rest) := by
  rw [moreEntries, bind_ok (peek_cons rfl)]
  rfl

lemma colon_cons : colon n (':' :: cs) = .ok ((), cs) := by
  rw [colon, bind_ok (peek_cons rfl)]
  rfl

/-- The reader gives what was written wherever the text of the value stands. -/
def ReadsText (n : ℕ) (j : Json) (x : JsonReader α) (a : α) : Prop :=
  (∃ c cs, compactText j = c :: cs ∧ Starts j c) ∧
    ∀ rest, Ends rest → x n (compactText j ++ rest) = .ok (a, rest)

section

variable {x : JsonReader α} {items : List Json} {as : List α}

lemma itemsWithin_cons {first : Bool} {bound : ℕ} {j : Json} {a : α} {left : List Char}
    (hmore : moreItems first n cs = .ok (true, compactText j ++ left)) (h : ReadsText n j x a)
    (hends : Ends left) (hrest : itemsWithin x false bound n left = .ok (as, rest)) :
    itemsWithin x first (bound + 1) n cs = .ok (a :: as, rest) := by
  rw [itemsWithin, bind_ok hmore]
  change (x >>= fun a => itemsWithin x false bound >>= fun as => pure (a :: as)) n _ = _
  rw [bind_ok (h.2 left hends), bind_ok hrest]
  rfl

lemma itemsWithin_end (first : Bool) (bound : ℕ) :
    itemsWithin x first (bound + 1) n (']' :: rest) = .ok ([], ']' :: rest) := by
  rw [itemsWithin, bind_ok (moreItems_end first)]
  rfl

lemma itemsWithin_later (h : List.Forall₂ (fun j a => ReadsText n j x a) items as) {bound : ℕ}
    (hbound : items.length < bound) :
    itemsWithin x false bound n ((items.flatMap fun j => ',' :: compactText j) ++ ']' :: rest) =
      .ok (as, ']' :: rest) := by
  induction h generalizing bound with
  | nil =>
    cases bound with
    | zero => omega
    | succ bound => exact itemsWithin_end false bound
  | @cons j a items as hfirst _ ih =>
    cases bound with
    | zero => omega
    | succ bound =>
      obtain ⟨c, cs, htext, hstarts⟩ := hfirst.1
      refine itemsWithin_cons ?_ hfirst (ends_flatMap (.inl rfl) _ items _)
        (ih (Nat.lt_of_succ_lt_succ hbound))
      rw [List.flatMap_cons, htext]
      simpa using moreItems_later hstarts.space hstarts.bracket

lemma items_text (h : List.Forall₂ (fun j a => ReadsText n j x a) items as) :
    JsonReader.items x (n + 1) (compactText (.array items) ++ rest) = .ok (as, rest) := by
  have hwithin : itemsWithin x true ((compactItems items ++ ']' :: rest).length + 1) n
      (compactItems items ++ ']' :: rest) = .ok (as, ']' :: rest) := by
    cases h with
    | nil => exact itemsWithin_end true _
    | @cons j a items as hfirst hrest =>
      obtain ⟨c, cs, htext, hstarts⟩ := hfirst.1
      rw [compactItems_cons, List.append_assoc]
      have hlength := length_le_flatMap compactText items
      refine itemsWithin_cons ?_ hfirst (ends_flatMap (.inl rfl) _ items _)
        (itemsWithin_later hrest ?_)
      · rw [htext]
        exact moreItems_first hstarts.space hstarts.bracket
      · simp only [List.length_append, List.length_cons, htext]
        omega
  rw [compactText, List.cons_append, List.cons_append, List.append_assoc]
  change (remaining >>= fun bound => _) n (compactItems items ++ ']' :: rest) = _
  rw [bind_ok rfl, bind_ok hwithin]
  rfl

end

section

variable {objection : String → σ → Option Problem} {step : String → σ → JsonReader σ} {s t u : σ}
  {entries : List (String × Json)}

lemma stepsWithin_cons {first : Bool} {bound : ℕ} {name : String} {j : Json} {left : List Char}
    (hmore : moreEntries first n cs = .ok (true, entryText (name, j) ++ left))
    (hobjection : objection name s = none) (h : ReadsText n j (step name s) t)
    (hends : Ends left) :
    stepsWithin objection step first s (bound + 1) n cs =
      stepsWithin objection step false t bound n left := by
  rw [stepsWithin, bind_ok hmore, entryText, List.append_assoc]
  change (string >>= fun name => _) n _ = _
  rw [bind_ok (string_literal _)]
  simp only [hobjection]
  rw [List.cons_append, bind_ok colon_cons, bind_ok (h.2 left hends)]

lemma stepsWithin_end (first : Bool) (bound : ℕ) :
    stepsWithin objection step first s (bound + 1) n ('}' :: rest) = .ok (s, '}' :: rest) := by
  rw [stepsWithin, bind_ok (moreEntries_end first)]
  rfl

lemma entryText_eq (entry : String × Json) : ∃ body, entryText entry = '"' :: body := ⟨_, rfl⟩

lemma stepsWithin_later
    (h : Taken (fun name j s t => objection name s = none ∧ ReadsText n j (step name s) t)
      s entries t) {bound : ℕ} (hbound : entries.length < bound) :
    stepsWithin objection step false s bound n
      ((entries.flatMap fun entry => ',' :: entryText entry) ++ '}' :: rest) =
        .ok (t, '}' :: rest) := by
  induction h generalizing bound with
  | nil =>
    cases bound with
    | zero => omega
    | succ bound => exact stepsWithin_end false bound
  | @cons name j entries _ _ _ hfirst _ ih =>
    cases bound with
    | zero => omega
    | succ bound =>
      obtain ⟨body, hbody⟩ := entryText_eq (name, j)
      rw [stepsWithin_cons ?_ hfirst.1 hfirst.2 (ends_flatMap (.inr rfl) entryText entries rest)]
      · exact ih (Nat.lt_of_succ_lt_succ hbound)
      · rw [List.flatMap_cons, hbody]
        simpa using moreEntries_later

lemma steps_text
    (h : Taken (fun name j s t => objection name s = none ∧ ReadsText n j (step name s) t)
      s entries t) :
    steps objection step s (n + 1) (compactText (.object entries) ++ rest) = .ok (t, rest) := by
  have hwithin : stepsWithin objection step true s
      ((compactEntries entries ++ '}' :: rest).length + 1) n
      (compactEntries entries ++ '}' :: rest) = .ok (t, '}' :: rest) := by
    cases h with
    | nil => exact stepsWithin_end true _
    | @cons name j entries _ _ _ hfirst hrest =>
      obtain ⟨body, hbody⟩ := entryText_eq (name, j)
      rw [compactEntries_cons, List.append_assoc]
      have hlength := length_le_flatMap entryText entries
      rw [stepsWithin_cons ?_ hfirst.1 hfirst.2 (ends_flatMap (.inr rfl) entryText entries rest)]
      · refine stepsWithin_later hrest ?_
        simp only [List.length_append, List.length_cons, hbody]
        omega
      · rw [hbody]
        exact moreEntries_first
  rw [compactText, List.cons_append, List.cons_append, List.append_assoc]
  change (remaining >>= fun bound => _) n (compactEntries entries ++ '}' :: rest) = _
  rw [bind_ok rfl, bind_ok hwithin]
  rfl

end

section

variable {j : Json}

lemma number_of_scalar (hc : isNumeric c) (h : scalar c n cs = .ok (j, rest)) :
    isNumberStart c ∧ number n cs = .ok (j, rest) := by
  have hword {letter : Char} (hletter : isNumeric letter = false) : c ≠ letter := by
    rintro rfl
    rw [hc] at hletter
    cases hletter
  rw [scalar, if_neg (hword rfl), if_neg (hword rfl), if_neg (hword rfl), if_neg (hword rfl)] at h
  split at h
  · exact ⟨‹_›, h⟩
  · cases h

lemma starts_of_isNumberStart (h : isNumberStart c) : Starts j c := by
  have hne (other : Char) (hother : isNumberStart other = false) : c ≠ other := by
    rintro rfl
    rw [h] at hother
    cases hother
  have hspace : isSpace c = false := by
    simp only [isSpace, Bool.or_eq_false_iff, beq_eq_false_iff_ne]
    exact ⟨⟨⟨hne _ rfl, hne _ rfl⟩, hne _ rfl⟩, hne _ rfl⟩
  exact ⟨hspace, hne _ rfl, fun heq => absurd heq (hne _ rfl)⟩

lemma isSpace_of_isNumeric (h : isNumeric c) : isSpace c = false := by
  have hne (other : Char) (hother : isNumeric other = false) : c ≠ other := by
    rintro rfl
    rw [h] at hother
    cases hother
  simp only [isSpace, Bool.or_eq_false_iff, beq_eq_false_iff_ne]
  exact ⟨⟨⟨hne _ rfl, hne _ rfl⟩, hne _ rfl⟩, hne _ rfl⟩

lemma number_of_raw {r : Raw} (hnumeric : ∀ c ∈ cs, isNumeric c) (hj : j.isNumber)
    (h : raw levels cs = .ok (r, rest)) (hr : r.json?.getD .null = j) :
    (∃ c body, cs = c :: body ∧ isNumberStart c) ∧ number levels cs = .ok (j, rest) := by
  rcases cs with _ | ⟨c, cs⟩
  · cases h
  have hc := hnumeric c List.mem_cons_self
  have hne (other : Char) (hother : isNumeric other = false) : c ≠ other := by
    rintro rfl
    rw [hc] at hother
    cases hother
  change rawWithin (126 + 1) levels _ = _ at h
  rw [rawWithin, bind_ok (valueStart_cons (isSpace_of_isNumeric hc)), if_neg (hne _ rfl),
    if_neg (hne _ rfl)] at h
  obtain ⟨value, left, hscalar, hresult⟩ := bind_eq_ok h
  cases hresult
  obtain ⟨hstart, hnumber⟩ := number_of_scalar hc hscalar
  have hvalue : value = j := by
    cases value <;> cases hr <;> first | rfl | cases hj
  exact ⟨⟨c, cs, rfl, hstart⟩, hvalue ▸ hnumber⟩

lemma number_text (hnumeric : ∀ c ∈ compactText j, isNumeric c) (hj : j.isNumber)
    (h : parse j.compact = .ok j) :
    (∃ c cs, compactText j = c :: cs ∧ isNumberStart c) ∧
      ∀ n rest, Ends rest → number n (compactText j ++ rest) = .ok (j, rest) := by
  obtain ⟨left, hread, hspaces⟩ := run_eq_ok.mp h
  rw [compact, String.toList_ofList] at hread
  obtain ⟨r, left', hraw, hresult⟩ := bind_eq_ok hread
  obtain ⟨hr, hleft⟩ := Prod.mk.inj (Except.ok.inj hresult)
  subst hleft
  obtain ⟨hstart, hnumber⟩ := number_of_raw hnumeric hj hraw hr
  refine ⟨hstart, fun n rest hrest => ?_⟩
  obtain ⟨⟨literal, _⟩, hscan, hvalue⟩ := Except.bind_eq_ok hnumber
  obtain ⟨value, hliteral, hresult⟩ := Except.bind_eq_ok hvalue
  cases hresult
  obtain ⟨hsuffix, hstable⟩ := stable_scanNumber _ _ _ hscan
  have hleft : left' = [] := by
    rcases left' with _ | ⟨c, left'⟩
    · rfl
    · have hc := hnumeric c (hsuffix.subset List.mem_cons_self)
      rw [List.dropWhile_cons_of_neg (by simp [isSpace_of_isNumeric hc])] at hspaces
      cases hspaces
  change (scanNumber .endInValue (compactText j ++ rest) >>= _) = _
  rw [hstable rest hrest, hleft]
  change (literal.value >>= _) = _
  rw [hliteral]
  rfl

lemma compactText_scalar (h : j.isScalar) : compactText j = scalarText j := by
  cases j
  case array | object => cases h
  all_goals rw [compactText] <;> exact fun _ heq => nomatch heq

lemma scalar_text (hscalar : j.isScalar) (hj : Legible n j) :
    ∃ c cs, compactText j = c :: cs ∧ Starts j c ∧ c ≠ '[' ∧ c ≠ '{' ∧
      ∀ rest, Ends rest → scalar c n (compactText j ++ rest) = .ok (j, rest) := by
  have hnumber (hnumber : j.isNumber) (hnumeric : ∀ c ∈ compactText j, isNumeric c)
      (hparse : parse j.compact = .ok j) :
      ∃ c cs, compactText j = c :: cs ∧ Starts j c ∧ c ≠ '[' ∧ c ≠ '{' ∧
        ∀ rest, Ends rest → scalar c n (compactText j ++ rest) = .ok (j, rest) := by
    obtain ⟨⟨c, cs, htext, hstart⟩, hread⟩ := number_text hnumeric hnumber hparse
    have hne (other : Char) (hother : isNumberStart other = false) : c ≠ other := by
      rintro rfl
      rw [hstart] at hother
      cases hother
    refine ⟨c, cs, htext, starts_of_isNumberStart hstart, hne _ rfl, hne _ rfl,
      fun rest hrest => ?_⟩
    rw [scalar, if_neg (hne _ rfl), if_neg (hne _ rfl), if_neg (hne _ rfl), if_neg (hne _ rfl),
      if_pos hstart]
    exact hread n rest hrest
  rw [compactText_scalar hscalar] at hnumber ⊢
  cases j with
  | array | object => cases hscalar
  | null =>
    exact ⟨'n', _, rfl, ⟨rfl, by decide, fun _ => rfl⟩, by decide, by decide, fun _ _ => rfl⟩
  | bool b =>
    cases b
    · exact ⟨'f', _, rfl, ⟨rfl, by decide, nofun⟩, by decide, by decide, fun _ _ => rfl⟩
    · exact ⟨'t', _, rfl, ⟨rfl, by decide, nofun⟩, by decide, by decide, fun _ _ => rfl⟩
  | string s =>
    refine ⟨'"', _, rfl, ⟨rfl, by decide, nofun⟩, by decide, by decide, fun rest _ => ?_⟩
    change (string >>= fun s => pure (Json.string s)) n (jsonLiteral s.toList ++ rest) = _
    rw [bind_ok (string_literal s)]
    rfl
  | int i => exact hnumber rfl (isNumeric_toString i) (hj.numbers _ (List.mem_singleton_self _))
  | float x => exact hnumber rfl (isNumeric_text x) (hj.numbers _ (List.mem_singleton_self _))

end

section

variable {x : JsonReader α} {a : α} {j : Json}

lemma ReadsText.bind {f : α → JsonReader β} {b : β} (h : ReadsText n j x a) (hf : f a = pure b) :
    ReadsText n j (x >>= f) b := by
  refine ⟨h.1, fun rest hrest => ?_⟩
  rw [bind_ok (h.2 rest hrest), hf]
  rfl

lemma pairs_text {entries : List (String × Json)} {es : List (String × α)}
    (h : List.Forall₂ (fun entry e => entry.1 = e.1 ∧ ReadsText n entry.2 x e.2) entries es) :
    pairs x (n + 1) (compactText (.object entries) ++ rest) = .ok (es, rest) := by
  have htaken (found : List (String × α)) :
      Taken (fun name j s t => (none : Option Problem) = none ∧ ReadsText n j (addEntry x name s) t)
        found entries (es.reverse ++ found) := by
    induction h generalizing found with
    | nil => exact .nil found
    | @cons entry e _ _ hfirst _ ih =>
      obtain ⟨hkey, hvalue⟩ := hfirst
      have hstep : ReadsText n entry.2 (addEntry x entry.1 found) (e :: found) :=
        hvalue.bind (by rw [hkey])
      rw [List.reverse_cons, List.append_assoc]
      exact .cons ⟨rfl, hstep⟩ (ih (e :: found))
  have hsteps : steps (fun _ _ => none) (addEntry x) [] (n + 1)
      (compactText (.object entries) ++ rest) = .ok (es.reverse ++ [], rest) :=
    steps_text (htaken [])
  rw [pairs, bind_ok hsteps, List.append_nil, List.reverse_reverse]
  rfl

lemma array_starts (items : List Json) :
    ∃ c cs, compactText (.array items) = c :: cs ∧ Starts (.array items) c :=
  ⟨'[', _, by rw [compactText]; rfl, rfl, by decide, nofun⟩

lemma object_starts (entries : List (String × Json)) :
    ∃ c cs, compactText (.object entries) = c :: cs ∧ Starts (.object entries) c :=
  ⟨'{', _, by rw [compactText]; rfl, rfl, by decide, nofun⟩

lemma valueStart_array (items : List Json) :
    valueStart n (compactText (.array items) ++ rest) =
      .ok ('[', compactText (.array items) ++ rest) := by
  rw [compactText]
  exact valueStart_cons rfl

lemma valueStart_object (entries : List (String × Json)) :
    valueStart n (compactText (.object entries) ++ rest) =
      .ok ('{', compactText (.object entries) ++ rest) := by
  rw [compactText]
  exact valueStart_cons rfl

lemma rawWithin_scalar (hscalar : j.isScalar) (hj : Legible n j) :
    ReadsText n j (rawWithin n) (ValueReader.raw j) := by
  obtain ⟨c, cs, htext, hstarts, hlist, hobject, hread⟩ := scalar_text hscalar hj
  refine ⟨⟨c, cs, htext, hstarts⟩, fun rest hrest => ?_⟩
  have hstart : valueStart n (compactText j ++ rest) = .ok (c, compactText j ++ rest) := by
    rw [htext]
    exact valueStart_cons hstarts.space
  have hraw : rawScalar j = ValueReader.raw j := by
    cases j
    case array | object => cases hscalar
    all_goals rfl
  cases n with
  | zero =>
    rw [rawWithin, bind_ok hstart, if_neg (by simp [hlist, hobject]),
      bind_ok (hread rest hrest), hraw]
    rfl
  | succ n =>
    rw [rawWithin, bind_ok hstart, if_neg hlist, if_neg hobject, bind_ok (hread rest hrest), hraw]
    rfl

lemma rawWithin_text (hj : Legible n j) : ReadsText n j (rawWithin n) (ValueReader.raw j) := by
  induction n generalizing j with
  | zero =>
    cases hj.nests with
    | scalar h => exact rawWithin_scalar h hj
  | succ n ih =>
    cases hj.nests with
    | scalar h => exact rawWithin_scalar h hj
    | @array _ items =>
      obtain ⟨_, hbelow, hitems⟩ := hj.items
      cases hbelow
      have hall : List.Forall₂ (fun item r => ReadsText n item (rawWithin n) r) items
          (items.map ValueReader.raw) := by
        rw [List.forall₂_map_right_iff, List.forall₂_same]
        exact fun item hitem => ih (hitems item hitem)
      refine ⟨array_starts items, fun rest _ => ?_⟩
      rw [rawWithin, bind_ok (valueStart_array items), if_pos rfl, bind_ok (items_text hall),
        ValueReader.raw_array]
      rfl
    | @object _ entries =>
      obtain ⟨_, hbelow, hentries⟩ := hj.entries
      cases hbelow
      have hall : List.Forall₂
          (fun entry e => entry.1 = e.1 ∧ ReadsText n entry.2 (rawWithin n) e.2)
          entries (entries.map fun entry => (entry.1, ValueReader.raw entry.2)) := by
        rw [List.forall₂_map_right_iff, List.forall₂_same]
        exact fun entry hentry => ⟨rfl, ih (hentries entry hentry)⟩
      refine ⟨object_starts entries, fun rest _ => ?_⟩
      rw [rawWithin, bind_ok (valueStart_object entries), if_neg (by decide), if_pos rfl,
        bind_ok (pairs_text hall), ValueReader.raw_object, List.map_map]
      rfl

lemma string_starts (s : String) :
    ∃ c cs, compactText (.string s) = c :: cs ∧ Starts (.string s) c :=
  ⟨'"', _, by rw [compactText_scalar rfl]; rfl, rfl, by decide, nofun⟩

lemma text_reads (s : String) : ReadsText n (.string s) text s := by
  refine ⟨string_starts s, fun rest _ => ?_⟩
  rw [compactText_scalar rfl]
  change text n (jsonLiteral s.toList ++ rest) = _
  have hstart : valueStart n (jsonLiteral s.toList ++ rest) =
      .ok ('"', jsonLiteral s.toList ++ rest) := valueStart_cons rfl
  rw [text, bind_ok hstart, if_pos rfl, string_literal]

lemma flag_reads (b : Bool) : ReadsText n (.bool b) flag b := by
  refine ⟨?_, fun rest _ => ?_⟩
  · rw [compactText_scalar rfl]
    cases b
    · exact ⟨'f', _, rfl, rfl, by decide, nofun⟩
    · exact ⟨'t', _, rfl, rfl, by decide, nofun⟩
  · rw [compactText_scalar rfl]
    cases b <;> rfl

lemma choice_reads {names : List String} {s : String} (h : s ∈ names) :
    ReadsText n (.string s) (choice names) s := by
  refine (text_reads s).bind ?_
  rw [if_pos (by simpa using h)]

lemma null_reads : ReadsText n .null (optional x) none := by
  refine ⟨⟨'n', _, by rw [compactText_scalar rfl]; rfl, rfl, by decide, fun _ => rfl⟩,
    fun rest _ => ?_⟩
  rw [compactText_scalar rfl]
  rfl

lemma optional_reads (hnull : j.isNull = false) (h : ReadsText n j x a) :
    ReadsText n j (optional x) (some a) := by
  refine ⟨h.1, fun rest hrest => ?_⟩
  obtain ⟨c, cs, htext, hstarts⟩ := h.1
  have hpeek : peek n (compactText j ++ rest) = .ok (some c, compactText j ++ rest) := by
    rw [htext]
    exact peek_cons hstarts.space
  have hne : ¬some c = some 'n' := by
    intro heq
    rw [hstarts.null (Option.some.inj heq)] at hnull
    cases hnull
  rw [optional, bind_ok hpeek, if_neg hne, bind_ok (h.2 rest hrest)]
  rfl

lemma list_reads {items : List Json} {as : List α}
    (h : List.Forall₂ (fun item a => ReadsText n item x a) items as) :
    ReadsText (n + 1) (.array items) (list x) as := by
  refine ⟨array_starts items, fun rest _ => ?_⟩
  rw [list, bind_ok (valueStart_array items), if_pos rfl, items_text h]

lemma entries_reads {entries : List (String × Json)} {es : List (String × α)}
    (h : List.Forall₂ (fun entry e => entry.1 = e.1 ∧ ReadsText n entry.2 x e.2) entries es) :
    ReadsText (n + 1) (.object entries) (JsonReader.entries x) es := by
  refine ⟨object_starts entries, fun rest _ => ?_⟩
  rw [JsonReader.entries, bind_ok (valueStart_object entries), if_pos rfl, pairs_text h]

section

variable {entries : List (String × Json)} {name : String}
  {objection : String → σ → Option Problem} {step : String → σ → JsonReader σ} {s t : σ}
  (h : Taken (fun name j s t => objection name s = none ∧ ReadsText n j (step name s) t)
    s entries t)

include h

lemma keywords_reads : ReadsText (n + 1) (.object entries) (keywords name objection step s) t := by
  refine ⟨object_starts entries, fun rest _ => ?_⟩
  rw [keywords, bind_ok (valueStart_object entries), if_pos rfl, steps_text h]

lemma record_reads {names : List String} (hnames : ∀ entry ∈ entries, entry.1 ∈ names) :
    ReadsText (n + 1) (.object entries) (record name names objection step s) t := by
  refine ⟨object_starts entries, fun rest _ => ?_⟩
  rw [record, bind_ok (valueStart_object entries), if_neg (by decide), if_pos rfl]
  refine steps_text (h.mono fun entry hentry s t hstep => ?_)
  have hname : names.contains entry.1 := by simpa using hnames entry hentry
  rw [if_pos hname]
  simp only [hname, if_true]
  exact hstep

end

instance : Reading JsonReader where
  reads := ReadsText
  legible := Legible
  nests h := h.nests
  legible_items h := h.items
  legible_entries h := h.entries
  bind := ReadsText.bind
  text := text_reads _
  flag := flag_reads _
  choice := choice_reads
  null := null_reads
  optional := optional_reads
  list := list_reads
  entries := entries_reads
  keywords := keywords_reads
  record hnames h := record_reads h hnames
  raw := rawWithin_text
  json h hj := ReadsText.bind (rawWithin_text h) (by rw [Raw.json_raw hj]; rfl)

end

end JsonReader

end SchemaTypes
