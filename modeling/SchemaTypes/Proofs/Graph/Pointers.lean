import SchemaTypes.Schema.Basic
import Mathlib.Data.List.Basic
import Mathlib.Data.List.Induction
import Std.Data.String.ToNat

/-! A pointer is a sequence of segments without slashes, and it determines the path that it was
written for. Segments are written and read by two replacements each, whose order matters. -/

namespace SchemaTypes

namespace Pointer

lemma unescapeChars_escapeChars (cs : List Char) : unescapeChars (escapeChars cs) = cs := by
  fun_induction escapeChars cs with
  | case1 => rfl
  | case2 rest ih => rw [unescapeChars, ih]
  | case3 rest ih => rw [unescapeChars, ih]
  | case4 c rest htilde hslash ih =>
    rw [unescapeChars, ih]
    · exact fun _ h _ => htilde h
    · exact fun _ h _ => htilde h

lemma slash_not_mem_escapeChars (cs : List Char) : '/' ∉ escapeChars cs := by
  fun_induction escapeChars cs with
  | case1 => simp
  | case2 rest ih => simpa using ih
  | case3 rest ih => simpa using ih
  | case4 c rest htilde hslash ih => simpa using ⟨fun h => hslash h.symm, ih⟩

lemma escapeChars_inj {as bs : List Char} : escapeChars as = escapeChars bs ↔ as = bs := by
  refine ⟨fun h => ?_, fun h => h ▸ rfl⟩
  rw [← unescapeChars_escapeChars as, h, unescapeChars_escapeChars]

/-- The text with each occurrence of a pattern, from left to right, written anew. -/
def replaceAll (pattern written : List Char) : List Char → List Char
  | [] => []
  | c :: rest =>
    if pattern.isPrefixOf (c :: rest) then
      written ++ replaceAll pattern written (rest.drop (pattern.length - 1))
    else c :: replaceAll pattern written rest
termination_by cs => cs.length

def replace (pattern written : String) (s : String) : String :=
  String.ofList (replaceAll pattern.toList written.toList s.toList)

section Replacement

variable {a b c : Char} {written rest : List Char}

lemma replaceAll_char_self : replaceAll [a] written (a :: rest) =
    written ++ replaceAll [a] written rest := by
  rw [replaceAll, if_pos (by simp)]
  rfl

lemma replaceAll_char_of_ne (h : c ≠ a) : replaceAll [a] written (c :: rest) =
    c :: replaceAll [a] written rest := by
  rw [replaceAll, if_neg (by simpa using h.symm)]

lemma replaceAll_pair_self : replaceAll [a, b] written (a :: b :: rest) =
    written ++ replaceAll [a, b] written rest := by
  rw [replaceAll, if_pos (by simp)]
  rfl

lemma replaceAll_pair_of_ne (h : c = a → rest.head? ≠ some b) :
    replaceAll [a, b] written (c :: rest) = c :: replaceAll [a, b] written rest := by
  rw [replaceAll, if_neg]
  cases rest with
  | nil => simp
  | cons d rest =>
    simp only [List.isPrefixOf_cons_cons, List.isPrefixOf_nil_left, Bool.and_true, Bool.and_eq_true,
      beq_iff_eq, not_and]
    exact fun hc hd => h hc.symm (by rw [hd]; rfl)

end Replacement

lemma escapeChars_eq_replaceAll (cs : List Char) :
    escapeChars cs = replaceAll ['/'] ['~', '1'] (replaceAll ['~'] ['~', '0'] cs) := by
  fun_induction escapeChars cs with
  | case1 => simp [replaceAll]
  | case2 rest ih =>
    rw [replaceAll_char_self, List.cons_append, List.cons_append, List.nil_append,
      replaceAll_char_of_ne (by decide), replaceAll_char_of_ne (by decide), ih]
  | case3 rest ih =>
    rw [replaceAll_char_of_ne (by decide), replaceAll_char_self, ih]
    rfl
  | case4 c rest htilde hslash ih =>
    rw [replaceAll_char_of_ne htilde, replaceAll_char_of_ne hslash, ih]

/-- The first replacement makes no `~0`. -/
lemma head?_replaceAll_slash {cs : List Char}
    (h : (replaceAll ['~', '1'] ['/'] cs).head? = some '0') : cs.head? = some '0' := by
  cases cs with
  | nil => simp [replaceAll] at h
  | cons c rest =>
    rw [replaceAll] at h
    split at h
    · cases h
    · exact h

lemma unescapeChars_eq_replaceAll (cs : List Char) :
    unescapeChars cs = replaceAll ['~', '0'] ['~'] (replaceAll ['~', '1'] ['/'] cs) := by
  fun_induction unescapeChars cs with
  | case1 => simp [replaceAll]
  | case2 rest ih =>
    have hslashes : replaceAll ['~', '1'] ['/'] ('~' :: '0' :: rest) =
        '~' :: '0' :: replaceAll ['~', '1'] ['/'] rest := by
      rw [replaceAll_pair_of_ne (by simp), replaceAll_pair_of_ne (by simp)]
    rw [hslashes, replaceAll_pair_self, ih, List.singleton_append]
  | case3 rest ih =>
    rw [replaceAll_pair_self, List.singleton_append, replaceAll_pair_of_ne (by simp), ih]
  | case4 c rest hzero hone ih =>
    have hhead {d : Char} (h : ∀ rest', c = '~' → rest = d :: rest' → False) (hc : c = '~') :
        rest.head? ≠ some d := fun hd => by
      obtain ⟨rest', rfl⟩ := List.head?_eq_some_iff.mp hd
      exact h rest' hc rfl
    rw [replaceAll_pair_of_ne (hhead hone), replaceAll_pair_of_ne, ih]
    exact fun hc hd => hhead hzero hc (head?_replaceAll_slash hd)

/-- Tildes are written first, so that those of `~1` are not written again. -/
lemma escape_eq_replace (segment : String) :
    escape segment = replace "/" "~1" (replace "~" "~0" segment) := by
  simp [escape, replace, escapeChars_eq_replaceAll]

/-- Slashes are read first, so that `~01` is not read as one. -/
lemma unescape_eq_replace (segment : String) :
    unescape segment = replace "~0" "~" (replace "~1" "/" segment) := by
  simp [unescape, replace, unescapeChars_eq_replaceAll]

lemma unescape_escape (segment : String) : unescape (escape segment) = segment := by
  simp [escape, unescape, unescapeChars_escapeChars]

lemma slash_not_mem_escape (segment : String) : '/' ∉ (escape segment).toList := by
  rw [escape, String.toList_ofList]
  exact slash_not_mem_escapeChars _

lemma toDigits_inj {i j : ℕ} : Nat.toDigits 10 i = Nat.toDigits 10 j ↔ i = j := by
  rw [← Nat.toList_repr, ← Nat.toList_repr, String.toList_inj, Nat.repr_inj]

lemma ne_toDigits {segment : List Char} (h : segment.any (!·.isDigit)) (i : ℕ) :
    segment ≠ Nat.toDigits 10 i := by
  rintro rfl
  obtain ⟨c, hc, hdigit⟩ := List.any_eq_true.mp h
  simp [Nat.isDigit_of_mem_toDigits (by decide) (by decide) hc] at hdigit

def join (segments : List (List Char)) : List Char := segments.flatMap ('/' :: ·)

lemma takeWhile_segment {a : List Char} (ha : '/' ∉ a) (rest : List (List Char)) :
    (a ++ join rest).takeWhile (· != '/') = a := by
  have hrest : (join rest).takeWhile (· != '/') = [] := by
    cases rest <;> simp [join]
  rw [List.takeWhile_append_of_pos, hrest, List.append_nil]
  intro c hc
  have hne : c ≠ '/' := fun h => ha (h ▸ hc)
  simpa using hne

lemma join_injective {as bs : List (List Char)} (ha : ∀ a ∈ as, '/' ∉ a) (hb : ∀ b ∈ bs, '/' ∉ b)
    (h : join as = join bs) : as = bs := by
  induction as generalizing bs with
  | nil =>
    cases bs with
    | nil => rfl
    | cons b bs => simp [join] at h
  | cons a as ih =>
    cases bs with
    | nil => simp [join] at h
    | cons b bs =>
      have h' : a ++ join as = b ++ join bs := by simpa [join] using h
      have hab : a = b := by
        rw [← takeWhile_segment (ha a List.mem_cons_self) as, h',
          takeWhile_segment (hb b List.mem_cons_self) bs]
      subst hab
      rw [ih (fun x hx => ha x (List.mem_cons_of_mem _ hx))
        (fun x hx => hb x (List.mem_cons_of_mem _ hx)) (List.append_cancel_left h')]

end Pointer

open Pointer

namespace Place

/-- The segments that a place takes in a pointer. -/
def segments : Place → List (List Char)
  | definition .definitions name => ["definitions".toList, escapeChars name.toList]
  | definition .defs name => ["$defs".toList, escapeChars name.toList]
  | definition .components name =>
    ["components".toList, "schemas".toList, escapeChars name.toList]
  | property name => ["properties".toList, escapeChars name.toList]
  | pattern regex => ["patternProperties".toList, escapeChars regex.toList]
  | additional => ["additionalProperties".toList]
  | dictionaryKey => ["x-dictionaryKey".toList]
  | items => ["items".toList]
  | item i => ["items".toList, Nat.toDigits 10 i]
  | allOf i => ["allOf".toList, Nat.toDigits 10 i]
  | anyOf i => ["anyOf".toList, Nat.toDigits 10 i]
  | oneOf i => ["oneOf".toList, Nat.toDigits 10 i]

lemma text_toList (place : Place) : place.text.toList = join place.segments := by
  cases place with
  | definition group name =>
    change ("/" ++ group.path ++ "/" ++ Pointer.escape name).toList = _
    cases group <;> simp [segments, join, Section.path, Pointer.escape]
  | property name =>
    change ("/properties/" ++ Pointer.escape name).toList = _
    simp [segments, join, Pointer.escape]
  | pattern regex =>
    change ("/patternProperties/" ++ Pointer.escape regex).toList = _
    simp [segments, join, Pointer.escape]
  | additional | dictionaryKey | items => rfl
  | item i =>
    change ("/items/" ++ i.repr).toList = _
    simp [segments, join]
  | allOf i =>
    change ("/allOf/" ++ i.repr).toList = _
    simp [segments, join]
  | anyOf i =>
    change ("/anyOf/" ++ i.repr).toList = _
    simp [segments, join]
  | oneOf i =>
    change ("/oneOf/" ++ i.repr).toList = _
    simp [segments, join]

lemma slash_not_mem_segments (place : Place) : ∀ segment ∈ place.segments, '/' ∉ segment := by
  have hdigits (i : ℕ) : '/' ∉ Nat.toDigits 10 i := by
    intro h
    simpa using Nat.isDigit_of_mem_toDigits (by decide) (by decide) h
  cases place with
  | definition group name => cases group <;> simp [segments, slash_not_mem_escapeChars]
  | property | pattern => simp [segments, slash_not_mem_escapeChars]
  | additional | dictionaryKey | items => simp [segments]
  | item i | allOf i | anyOf i | oneOf i => simp [segments, hdigits]

end Place

namespace Path

def segments (path : Path) : List (List Char) := path.flatMap Place.segments

lemma text_concat (path : Path) (place : Place) :
    Path.text (path ++ [place]) = Path.text path ++ place.text := by
  simp [Path.text]

lemma text_toList (path : Path) : (Path.text path).toList = '#' :: join (segments path) := by
  induction path using List.reverseRecOn with
  | nil => rfl
  | append_singleton path place ih =>
    rw [text_concat, String.toList_append, ih, Place.text_toList]
    simp [segments, join]

lemma slash_not_mem_segments (path : Path) : ∀ segment ∈ segments path, '/' ∉ segment := by
  intro segment h
  obtain ⟨place, _, h⟩ := List.mem_flatMap.mp h
  exact place.slash_not_mem_segments segment h

/-- No path goes on with a number: what follows `items` tells lists from tuples. -/
lemma segments_ne_digits (path : Path) (i : ℕ) (rest : List (List Char)) :
    segments path ≠ Nat.toDigits 10 i :: rest := by
  intro h
  cases path with
  | nil => cases h
  | cons place path =>
    rw [segments, List.flatMap_cons] at h
    cases place with
    | definition group name =>
      cases group <;> exact ne_toDigits (by decide) i (List.cons.inj h).1
    | property | pattern | additional | dictionaryKey | items | item | allOf | anyOf | oneOf =>
      exact ne_toDigits (by decide) i (List.cons.inj h).1

lemma segments_cons_inj {a b : Place} {p q : Path}
    (h : segments (a :: p) = segments (b :: q)) : a = b ∧ segments p = segments q := by
  have hp := segments_ne_digits p
  have hq := segments_ne_digits q
  simp only [segments, List.flatMap_cons] at h hp hq ⊢
  rcases a with ⟨_ | _ | _, a⟩ | a | a | _ | _ | _ | a | a | a | a <;>
    rcases b with ⟨_ | _ | _, b⟩ | b | b | _ | _ | _ | b | b | b | b <;>
    simp [Place.segments, escapeChars_inj, toDigits_inj, String.toList_inj] at h
  -- Keywords differ in their first segment, except for `items`, which a number may follow.
  all_goals first
    | exact ⟨congrArg _ h.1, h.2⟩
    | exact ⟨rfl, h⟩
    | exact (hp _ _ h).elim
    | exact (hq _ _ h.symm).elim

lemma segments_ne_nil (place : Place) (path : Path) : segments (place :: path) ≠ [] := by
  rw [segments, List.flatMap_cons]
  rcases place with ⟨_ | _ | _, _⟩ | _ | _ | _ | _ | _ | _ | _ | _ | _ <;> simp [Place.segments]

lemma segments_injective {p q : Path} (h : segments p = segments q) : p = q := by
  induction p generalizing q with
  | nil =>
    cases q with
    | nil => rfl
    | cons b q => exact (segments_ne_nil b q h.symm).elim
  | cons a p ih =>
    cases q with
    | nil => exact (segments_ne_nil a p h).elim
    | cons b q =>
      obtain ⟨rfl, htail⟩ := segments_cons_inj h
      rw [ih htail]

theorem text_injective {p q : Path} (h : Path.text p = Path.text q) : p = q := by
  have htext : '#' :: join (segments p) = '#' :: join (segments q) := by
    rw [← text_toList, ← text_toList, h]
  exact segments_injective (join_injective (slash_not_mem_segments p) (slash_not_mem_segments q)
    (List.cons.inj htext).2)

end Path

end SchemaTypes
