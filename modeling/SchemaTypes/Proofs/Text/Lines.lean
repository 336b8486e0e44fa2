import SchemaTypes.Text.Blank
import SchemaTypes.Text.Identifier
import Mathlib.Data.List.Basic

/-! A text as the lines that it is made of. -/

namespace SchemaTypes.Text

lemma splitLines_line {line : List Char} (h : '\n' ∉ line) (rest : List Char) :
    splitLines (line ++ '\n' :: rest) = line :: splitLines rest := by
  induction line with
  | nil => simp [splitLines]
  | cons c line ih =>
    rw [List.mem_cons, not_or] at h
    have hc : (c == '\n') = false := by simpa using Ne.symm h.1
    simp [splitLines, hc, ih h.2]

/-- The text of lines, each with its line feed. -/
def unlines (lines : List (List Char)) : List Char := lines.flatMap (· ++ ['\n'])

@[simp] lemma unlines_append (lines more : List (List Char)) :
    unlines (lines ++ more) = unlines lines ++ unlines more := List.flatMap_append

lemma unlines_cons (line : List Char) (lines : List (List Char)) :
    unlines (line :: lines) = line ++ '\n' :: unlines lines := by
  simp [unlines]

lemma unlines_singleton (line : List Char) : unlines [line] = line ++ ['\n'] := by
  simp [unlines]

lemma splitLines_unlines {lines : List (List Char)} (h : ∀ line ∈ lines, '\n' ∉ line) :
    splitLines (unlines lines) = lines ++ [[]] := by
  induction lines with
  | nil => rfl
  | cons line lines ih =>
    obtain ⟨hline, hlines⟩ := List.forall_mem_cons.mp h
    rw [unlines_cons, splitLines_line hline, ih hlines, List.cons_append]

lemma newline_not_mem_splitLines {line cs : List Char} (h : line ∈ splitLines cs) :
    '\n' ∉ line := by
  induction cs generalizing line with
  | nil => simp_all [splitLines]
  | cons c rest ih =>
    unfold splitLines at h
    split at h
    · rcases List.mem_cons.mp h with rfl | h
      · exact List.not_mem_nil
      · exact ih h
    · rename_i first lines hc heq
      rcases List.mem_cons.mp h with rfl | h
      · have hfirst : '\n' ∉ first := ih (heq ▸ List.mem_cons_self)
        simpa [hfirst] using Ne.symm (beq_eq_false_iff_ne.mp hc)
      · exact ih (heq ▸ List.mem_cons_of_mem _ h)
    · rename_i hc heq
      rw [List.mem_singleton.mp h, List.mem_singleton]
      exact Ne.symm (beq_eq_false_iff_ne.mp hc)

lemma trim_subset (cs : List Char) : trim cs ⊆ cs := by
  intro c hc
  have hreverse := (List.dropWhile_sublist _).subset (List.mem_reverse.mp hc)
  exact (List.dropWhile_sublist _).subset (List.mem_reverse.mp hreverse)

lemma mem_of_mem_intercalate {α : Type} {a : α} {separator : List α} {parts : List (List α)}
    (h : a ∈ separator.intercalate parts) : a ∈ separator ∨ ∃ part ∈ parts, a ∈ part := by
  induction parts with
  | nil => simp at h
  | cons part parts ih =>
    cases parts with
    | nil => exact .inr ⟨part, List.mem_singleton_self _, by simpa using h⟩
    | cons next parts =>
      rw [List.intercalate_cons_cons, List.mem_append, List.mem_append] at h
      rcases h with (h | h) | h
      · exact .inr ⟨part, List.mem_cons_self, h⟩
      · exact .inl h
      · refine (ih h).imp_right fun ⟨other, hother, ha⟩ => ?_
        exact ⟨other, List.mem_cons_of_mem _ hother, ha⟩

lemma newline_not_mem_oneLine (s : String) : '\n' ∉ (oneLine s).toList := by
  rw [oneLine, String.toList_intercalate]
  intro h
  rcases mem_of_mem_intercalate h with h | ⟨piece, hpiece, hmem⟩
  · exact absurd h (by decide)
  · simp only [List.map_map, List.mem_map, List.mem_filter, Function.comp_apply] at hpiece
    obtain ⟨_, ⟨⟨line, hline, rfl⟩, _⟩, rfl⟩ := hpiece
    rw [String.toList_ofList] at hmem
    exact newline_not_mem_splitLines hline (trim_subset line hmem)

lemma isIdentifierPart_of_isIdentifierStart {c : Char} (h : isIdentifierStart c) :
    isIdentifierPart c := by
  simp only [isIdentifierStart, isIdentifierPart, isAlphanumeric, Bool.or_eq_true] at h ⊢
  tauto

lemma isIdentifierPart_of_isIdentifier {s : String} (h : isIdentifier s) :
    ∀ c ∈ s.toList, isIdentifierPart c := by
  unfold isIdentifier at h
  split at h
  · simp at h
  · rename_i c rest heq
    rw [Bool.and_eq_true, List.all_eq_true] at h
    rw [heq]
    exact List.forall_mem_cons.mpr ⟨isIdentifierPart_of_isIdentifierStart h.1, h.2⟩

/-- The marks that stand behind an identifier, and the line feed. -/
def marks : List Char := ['\n', ' ', ',', ':', '?', '"', '/', '[']

lemma isIdentifierPart_mark {c : Char} (hc : c ∈ marks) : isIdentifierPart c = false := by
  have hall : marks.all (!isIdentifierPart ·) := by decide +kernel
  simpa using List.all_eq_true.mp hall c hc

lemma ne_mark {c mark : Char} (hc : isIdentifierPart c) (hmark : mark ∈ marks) : c ≠ mark := by
  rintro rfl
  rw [isIdentifierPart_mark hmark] at hc
  cases hc

lemma mark_not_mem_identifier {s : String} (h : isIdentifier s) {c : Char}
    (hc : c ∈ marks) : c ∉ s.toList :=
  fun hmem => ne_mark (isIdentifierPart_of_isIdentifier h c hmem) hc rfl

end SchemaTypes.Text
