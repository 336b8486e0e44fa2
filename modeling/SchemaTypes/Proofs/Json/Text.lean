import SchemaTypes.Json.Literal
import Mathlib.Data.List.Basic
import Mathlib.Tactic.Common

/-! JSON text is written on one line, and a string in it reads back as it was. -/

namespace SchemaTypes

open Numeric Text

namespace Json

variable {c : Char} {cs rest seen : List Char}

lemma hexValue?_hexDigit : ∀ n < 16, hexValue? (hexDigit n) = some n := by decide

lemma scanString_plain (hquote : c ≠ '"') (hslash : c ≠ '\\') (hcontrol : isControl c = false) :
    scanString seen (c :: rest) = scanString (c :: seen) rest := by
  rw [scanString.eq_def]
  split <;> simp_all

lemma scanString_hexEscape (hcontrol : c.toNat < 0x20) :
    scanString seen
        ('\\' :: 'u' :: '0' :: '0' :: hexDigit (c.toNat / 16) :: hexDigit (c.toNat % 16) :: rest) =
      scanString (c :: seen) rest := by
  have hhigh : hexValue? (hexDigit (c.toNat / 16)) = some (c.toNat / 16) :=
    hexValue?_hexDigit _ (by omega)
  have hlow : hexValue? (hexDigit (c.toNat % 16)) = some (c.toNat % 16) :=
    hexValue?_hexDigit _ (by omega)
  have hnumber : hexNumber? ['0', '0', hexDigit (c.toNat / 16), hexDigit (c.toNat % 16)] =
      some c.toNat := by
    have hzero : hexValue? '0' = some 0 := by decide
    simp only [hexNumber?, List.foldl_cons, List.foldl_nil, hzero, hhigh, hlow, Option.bind_some,
      Option.map_some, Option.some.injEq]
    omega
  have hnohigh : isHighSurrogate c.toNat = false := by
    simp only [isHighSurrogate, Bool.and_eq_false_iff, decide_eq_false_iff_not]
    omega
  have hnolow : isLowSurrogate c.toNat = false := by
    simp only [isLowSurrogate, Bool.and_eq_false_iff, decide_eq_false_iff_not]
    omega
  rw [scanString, hnumber]
  simp [hnohigh, hnolow, Char.ofNat_toNat]

lemma scanString_jsonEscape :
    scanString seen (jsonEscape c ++ rest) = scanString (c :: seen) rest := by
  unfold jsonEscape
  split
  case h_8 =>
    split
    · exact scanString_hexEscape ‹_›
    · rename_i hquote hslash _ _ _ _ _ hcontrol
      exact scanString_plain (by assumption) (by assumption) (by simpa [isControl] using hcontrol)
  all_goals simp [scanString, simpleEscape?]

lemma scanString_escaped (cs rest seen : List Char) :
    scanString seen (cs.flatMap jsonEscape ++ '"' :: rest) = .ok (seen.reverse ++ cs, rest) := by
  induction cs generalizing seen with
  | nil => simp [scanString]
  | cons c cs ih =>
    rw [List.flatMap_cons, List.append_assoc, scanString_jsonEscape, ih]
    simp

/-- What follows the opening quote of a literal is read as its characters. -/
lemma jsonLiteral_reads_back (cs rest : List Char) :
    ∃ body, jsonLiteral cs = '"' :: body ∧ scanString [] (body ++ rest) = .ok (cs, rest) := by
  refine ⟨cs.flatMap jsonEscape ++ ['"'], rfl, ?_⟩
  have h := scanString_escaped cs rest []
  simpa using h

end Json

lemma newline_not_mem_jsonEscape (c : Char) : '\n' ∉ jsonEscape c := by
  have hdigit : ∀ n < 16, '\n' ≠ hexDigit n := by decide
  unfold jsonEscape
  split
  case h_8 =>
    split
    · have hhigh := hdigit (c.toNat / 16) (by omega)
      have hlow := hdigit (c.toNat % 16) (by omega)
      simp [hhigh, hlow]
    · rw [List.mem_singleton]
      apply Ne.symm
      assumption
  all_goals decide

lemma newline_not_mem_jsonLiteral (cs : List Char) : '\n' ∉ jsonLiteral cs := by
  simp [jsonLiteral, newline_not_mem_jsonEscape]

namespace Numeric

/-- The characters of a number as it is written. -/
def isNumeric (c : Char) : Bool := c.isDigit || c == '-' || c == '+' || c == '.' || c == 'e'

lemma isNumeric_toDigits {n : ℕ} : ∀ c ∈ Nat.toDigits 10 n, isNumeric c := by
  intro c hc
  have hdigit := Nat.isDigit_of_mem_toDigits (by decide) (by decide) hc
  simp [isNumeric, hdigit]

lemma isNumeric_zeros {n : ℕ} : ∀ c ∈ zeros n, isNumeric c := by
  intro c hc
  rw [List.eq_of_mem_replicate hc]
  decide

lemma isNumeric_significantDigits {n : ℕ} : ∀ c ∈ significantDigits n, isNumeric c := by
  intro c hc
  have hreverse := (List.dropWhile_sublist _).subset (List.mem_reverse.mp hc)
  exact isNumeric_toDigits c (List.mem_reverse.mp hreverse)

variable {digits : List Char} {power : Int}

lemma isNumeric_positional (h : ∀ c ∈ digits, isNumeric c) :
    ∀ c ∈ positional digits power, isNumeric c := by
  have hzero : isNumeric '0' := by decide
  have hpoint : isNumeric '.' := by decide
  have htake (n : ℕ) : ∀ c ∈ digits.take n, isNumeric c := fun c hc => h c (List.mem_of_mem_take hc)
  have hdrop (n : ℕ) : ∀ c ∈ digits.drop n, isNumeric c := fun c hc => h c (List.mem_of_mem_drop hc)
  unfold positional
  split
  · simp only [List.forall_mem_append, List.forall_mem_cons]
    exact ⟨⟨⟨hzero, hpoint, by simp⟩, isNumeric_zeros⟩, h⟩
  · simp only [List.forall_mem_append, List.forall_mem_singleton]
    refine ⟨⟨⟨htake _, isNumeric_zeros⟩, hpoint⟩, ?_⟩
    split
    · simpa using hzero
    · exact hdrop _

lemma isNumeric_withExponent (h : ∀ c ∈ digits, isNumeric c) :
    ∀ c ∈ withExponent digits power, isNumeric c := by
  have hpoint : isNumeric '.' := by decide
  have hexponent : isNumeric 'e' := by decide
  have hsign : isNumeric (if power < 0 then '-' else '+') := by split <;> decide
  unfold withExponent
  simp only [List.forall_mem_append, List.forall_mem_cons]
  refine ⟨⟨⟨fun c hc => h c (List.mem_of_mem_take hc), ?_⟩, hexponent, hsign, by simp⟩,
    isNumeric_toDigits⟩
  split
  · simp
  · exact List.forall_mem_cons.mpr ⟨hpoint, fun c hc => h c (List.mem_of_mem_drop hc)⟩

lemma isNumeric_text (x : Double) : ∀ c ∈ x.text.toList, isNumeric c := by
  have hsign : ∀ c ∈ (if x.negative then ['-'] else []), isNumeric c := by
    split <;> simp [isNumeric]
  unfold Double.text
  simp only
  split
  · rw [String.toList_ofList, List.forall_mem_append]
    exact ⟨hsign, by simp [isNumeric]⟩
  · rw [String.toList_ofList, List.forall_mem_append]
    refine ⟨hsign, ?_⟩
    split
    · exact isNumeric_positional isNumeric_significantDigits
    · exact isNumeric_withExponent isNumeric_significantDigits

lemma isNumeric_toString (n : Int) : ∀ c ∈ (toString n).toList, isNumeric c := by
  have hdigits (n : ℕ) : ∀ c ∈ (Nat.repr n).toList, isNumeric c := by
    rw [Nat.repr, String.toList_ofList]
    exact isNumeric_toDigits
  cases n with
  | ofNat n => exact hdigits n
  | negSucc n =>
    change ∀ c ∈ ("-" ++ Nat.repr (n + 1)).toList, isNumeric c
    rw [String.toList_append, List.forall_mem_append]
    exact ⟨by simp [isNumeric], hdigits _⟩

end Numeric

namespace Json

lemma newline_not_mem_scalarText (j : Json) : '\n' ∉ scalarText j := by
  have hnumeric {cs : List Char} (h : ∀ c ∈ cs, isNumeric c) : '\n' ∉ cs :=
    fun hmem => absurd (h '\n' hmem) (by decide)
  cases j with
  | null => decide
  | bool b => cases b <;> decide
  | int n => exact hnumeric (isNumeric_toString n)
  | float x => exact hnumeric (isNumeric_text x)
  | string s => exact newline_not_mem_jsonLiteral s.toList
  | array items => exact List.not_mem_nil
  | object entries => exact List.not_mem_nil

mutual

lemma newline_not_mem_compactText : ∀ j : Json, '\n' ∉ compactText j
  | array items => by
    simp [compactText, newline_not_mem_compactItems items]
  | object entries => by
    simp [compactText, newline_not_mem_compactEntries entries]
  | null | bool _ | int _ | float _ | string _ => by
    simpa only [compactText] using newline_not_mem_scalarText _

lemma newline_not_mem_compactItems : ∀ items : List Json, '\n' ∉ compactItems items
  | [] => List.not_mem_nil
  | [item] => newline_not_mem_compactText item
  | item :: next :: rest => by
    simp [compactItems, newline_not_mem_compactText item,
      newline_not_mem_compactItems (next :: rest)]

lemma newline_not_mem_compactEntries :
    ∀ entries : List (String × Json), '\n' ∉ compactEntries entries
  | [] => List.not_mem_nil
  | [(key, value)] => by
    simp [compactEntries, newline_not_mem_jsonLiteral, newline_not_mem_compactText value]
  | (key, value) :: next :: rest => by
    simp [compactEntries, newline_not_mem_jsonLiteral, newline_not_mem_compactText value,
      newline_not_mem_compactEntries (next :: rest)]

end

end Json

end SchemaTypes
