import SchemaTypes.Json.Reader
import SchemaTypes.Proofs.Except
import SchemaTypes.Proofs.Json.Text

/-! Numbers in JSON text. A number that reads back from its own text also does so in front of what
may follow a value. -/

namespace SchemaTypes

open Decode Numeric

namespace Json

/-- What may follow a value: nothing, or what comes after it in a list or an object. -/
def Ends (rest : List Char) : Prop := ∀ c ∈ rest.head?, c = ',' ∨ c = ']' ∨ c = '}'

lemma ends_nil : Ends [] := by simp [Ends]

lemma Ends.not_digit {c : Char} {rest : List Char} (h : Ends (c :: rest)) : c.isDigit = false := by
  rcases h c rfl with rfl | rfl | rfl <;> rfl

lemma Ends.span_digits {rest : List Char} (h : Ends rest) (cs : List Char) :
    (cs ++ rest).takeWhile Char.isDigit = cs.takeWhile Char.isDigit ∧
      (cs ++ rest).dropWhile Char.isDigit = cs.dropWhile Char.isDigit ++ rest := by
  induction cs with
  | nil =>
    cases rest with
    | nil => simp
    | cons c rest => simp [h.not_digit]
  | cons c cs ih =>
    cases hdigit : c.isDigit <;> simp [hdigit, ih]

/-- A scanner that leaves an end of the text, and the same before what may follow a value. -/
def Stable {α : Type} (scan : List Char → Except Problem (α × List Char)) : Prop :=
  ∀ cs a left, scan cs = .ok (a, left) →
    left <:+ cs ∧ ∀ rest, Ends rest → scan (cs ++ rest) = .ok (a, left ++ rest)

/-- Reads digits, at least one. -/
def spanDigits {α : Type} (wrap : List Char → α) (cs : List Char) :
    Except Problem (α × List Char) :=
  if cs.head?.any Char.isDigit then
    .ok (wrap (cs.takeWhile Char.isDigit), cs.dropWhile Char.isDigit)
  else .error .invalidNumber

lemma stable_spanDigits {α : Type} (wrap : List Char → α) : Stable (spanDigits wrap) := by
  intro cs a left h
  rw [spanDigits] at h
  split at h
  · rename_i hdigit
    cases h
    refine ⟨List.dropWhile_suffix _, fun rest hrest => ?_⟩
    obtain ⟨htake, hdrop⟩ := hrest.span_digits cs
    have hhead : (cs ++ rest).head? = cs.head? := by
      cases cs with
      | nil => cases hdigit
      | cons c cs => rfl
    rw [spanDigits, hhead, if_pos hdigit, htake, hdrop]
  · cases h

lemma stable_spanned {α : Type} {scan : List Char → Except Problem (α × List Char)}
    (before : List Char) (wrap : List Char → α) {cs left : List Char} {d : Char} {a : α}
    (hscan : ∀ cs, scan (before ++ d :: cs) = spanDigits wrap (d :: cs))
    (h : scan (before ++ d :: cs) = .ok (a, left)) :
    left <:+ before ++ d :: cs ∧
      ∀ rest, Ends rest → scan (before ++ d :: cs ++ rest) = .ok (a, left ++ rest) := by
  rw [hscan] at h
  obtain ⟨hsuffix, hstable⟩ := stable_spanDigits wrap (d :: cs) a left h
  refine ⟨hsuffix.trans (List.suffix_append _ _), fun rest hrest => ?_⟩
  rw [List.append_assoc, List.cons_append, hscan]
  exact hstable rest hrest

section

variable {atEnd : Problem}

lemma stable_scanWhole : Stable (scanWhole atEnd) := by
  intro cs whole left h
  rcases cs with _ | ⟨d, cs⟩
  · cases h
  by_cases hzero : d = '0'
  · subst hzero
    rcases cs with _ | ⟨e, cs⟩
    · cases h
      refine ⟨List.nil_suffix, fun rest hrest => ?_⟩
      rcases rest with _ | ⟨c, rest⟩
      · rfl
      · simp [scanWhole, hrest.not_digit]
    · simp only [scanWhole] at h
      split at h
      · cases h
      · rename_i hdigit
        cases h
        refine ⟨List.suffix_cons _ _, fun rest _ => ?_⟩
        simp [scanWhole, hdigit]
  · have hscan (cs : List Char) : scanWhole atEnd (d :: cs) =
        if d.isDigit then .ok (d :: cs.takeWhile Char.isDigit, cs.dropWhile Char.isDigit)
        else .error .invalidNumber := by
      rw [scanWhole.eq_def]
      split <;> simp_all
    rw [hscan] at h
    split at h
    · rename_i hdigit
      cases h
      refine ⟨(List.dropWhile_suffix _).trans (List.suffix_cons _ _), fun rest hrest => ?_⟩
      rw [List.cons_append, hscan, if_pos hdigit, (hrest.span_digits cs).1,
        (hrest.span_digits cs).2]
    · cases h

lemma Ends.scanFraction {rest : List Char} (h : Ends rest) :
    Json.scanFraction atEnd rest = .ok (none, rest) := by
  rcases rest with _ | ⟨c, rest⟩
  · rfl
  · rcases h c rfl with rfl | rfl | rfl <;> rfl

lemma Ends.scanExponent {rest : List Char} (h : Ends rest) :
    Json.scanExponent atEnd rest = .ok (none, rest) := by
  rcases rest with _ | ⟨c, rest⟩
  · rfl
  · rcases h c rfl with rfl | rfl | rfl <;> rfl

lemma stable_scanFraction : Stable (scanFraction atEnd) := by
  intro cs fraction left h
  rcases cs with _ | ⟨c, cs⟩
  · cases h
    exact ⟨List.nil_suffix, fun rest hrest => hrest.scanFraction⟩
  by_cases hpoint : c = '.'
  · subst hpoint
    rcases cs with _ | ⟨d, cs⟩
    · cases h
    · exact stable_spanned ['.'] some (fun _ => rfl) h
  · have hscan (cs : List Char) : scanFraction atEnd (c :: cs) = .ok (none, c :: cs) := by
      rw [scanFraction.eq_def]
      split <;> simp_all
    rw [hscan] at h
    cases h
    exact ⟨List.suffix_refl _, fun rest _ => hscan _⟩

lemma stable_scanExponent : Stable (scanExponent atEnd) := by
  intro cs exponent left h
  rcases cs with _ | ⟨c, cs⟩
  · cases h
    exact ⟨List.nil_suffix, fun rest hrest => hrest.scanExponent⟩
  by_cases hexponent : c = 'e' ∨ c = 'E'
  · rcases cs with _ | ⟨sign, cs⟩
    · simp [scanExponent, hexponent] at h
    by_cases hsign : sign = '+' ∨ sign = '-'
    · rcases cs with _ | ⟨d, cs⟩
      · rcases hsign with rfl | rfl <;> simp [scanExponent, hexponent] at h
      · refine stable_spanned [c, sign] (fun digits => some (sign == '-', digits)) (fun cs => ?_) h
        rcases hsign with rfl | rfl <;> exact if_pos hexponent
    · refine stable_spanned [c] (fun digits => some (false, digits)) (fun cs => ?_) h
      rw [not_or] at hsign
      simp [scanExponent, hexponent, hsign]
      rfl
  · have hscan (cs : List Char) : scanExponent atEnd (c :: cs) = .ok (none, c :: cs) := by
      rw [scanExponent.eq_def]
      simp only [if_neg hexponent]
    rw [hscan] at h
    cases h
    exact ⟨List.suffix_refl _, fun rest _ => hscan _⟩

/-- Reads a number after its sign. -/
def scanUnsigned (atEnd : Problem) (negative : Bool) (cs : List Char) :
    Except Problem (NumberLiteral × List Char) := do
  let whole ← scanWhole atEnd cs
  let fraction ← scanFraction atEnd whole.2
  let exponent ← scanExponent atEnd fraction.2
  return (⟨negative, whole.1, fraction.1, exponent.1⟩, exponent.2)

lemma scanNumber_negative (cs : List Char) :
    scanNumber atEnd ('-' :: cs) = scanUnsigned atEnd true cs := rfl

lemma scanNumber_unsigned {c : Char} (h : c ≠ '-') (cs : List Char) :
    scanNumber atEnd (c :: cs) = scanUnsigned atEnd false (c :: cs) := by
  simp [scanNumber, scanUnsigned, h]

lemma stable_scanUnsigned (negative : Bool) : Stable (scanUnsigned atEnd negative) := by
  intro cs literal left h
  obtain ⟨⟨whole, _⟩, hwhole, h⟩ := Except.bind_eq_ok h
  obtain ⟨⟨fraction, _⟩, hfraction, h⟩ := Except.bind_eq_ok h
  obtain ⟨⟨exponent, _⟩, hexponent, h⟩ := Except.bind_eq_ok h
  cases h
  obtain ⟨hsuffix, hstable⟩ := stable_scanWhole _ _ _ hwhole
  obtain ⟨hsuffix', hstable'⟩ := stable_scanFraction _ _ _ hfraction
  obtain ⟨hsuffix'', hstable''⟩ := stable_scanExponent _ _ _ hexponent
  refine ⟨hsuffix''.trans (hsuffix'.trans hsuffix), fun rest hrest => ?_⟩
  rw [scanUnsigned, hstable rest hrest]
  change (scanFraction atEnd (_ ++ rest) >>= _) = _
  rw [hstable' rest hrest]
  change (scanExponent atEnd (_ ++ rest) >>= _) = _
  rw [hstable'' rest hrest]
  rfl

lemma stable_scanNumber : Stable (scanNumber atEnd) := by
  intro cs literal left h
  rcases cs with _ | ⟨c, cs⟩
  · cases h
  by_cases hsign : c = '-'
  · subst hsign
    rw [scanNumber_negative] at h
    obtain ⟨hsuffix, hstable⟩ := stable_scanUnsigned true cs literal left h
    refine ⟨hsuffix.trans (List.suffix_cons _ _), fun rest hrest => ?_⟩
    rw [List.cons_append, scanNumber_negative]
    exact hstable rest hrest
  · rw [scanNumber_unsigned hsign] at h
    obtain ⟨hsuffix, hstable⟩ := stable_scanUnsigned false (c :: cs) literal left h
    refine ⟨hsuffix, fun rest hrest => ?_⟩
    rw [List.cons_append, scanNumber_unsigned hsign]
    exact hstable rest hrest

end

end Json

end SchemaTypes
