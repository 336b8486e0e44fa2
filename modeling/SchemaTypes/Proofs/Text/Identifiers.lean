import SchemaTypes.Text.Identifier
import SchemaTypes.Proofs.Entries

/-! Which texts give a type an identifier. The words of a text are its letters and numerals in
order. A letter stays one when its case changes, but for a few that take a combining mark with it,
and a numeral of another script may stand in an identifier but not begin it. -/

namespace SchemaTypes.Text

/-- The small letters whose capitals are written with a combining mark. -/
def markedCapitals : List Nat :=
  [0x1F0, 0x390, 0x3B0, 0x1E96, 0x1E97, 0x1E98, 0x1E99, 0x1F50, 0x1F52, 0x1F54, 0x1F56, 0x1FB6,
   0x1FB7, 0x1FC6, 0x1FC7, 0x1FD2, 0x1FD3, 0x1FD6, 0x1FD7, 0x1FE2, 0x1FE3, 0x1FE4, 0x1FE6, 0x1FE7,
   0x1FF6, 0x1FF7]

/-- The first letter or numeral is a letter or a digit of ASCII, no word begins with a letter whose
capital has a mark, and none has a dotted capital I behind its first character. -/
@[mk_iff]
structure Nameable (text : String) : Prop where
  start : ∀ c ∈ text.toList.find? isAlphanumeric, isAlphabetic c ∨ c.isDigit
  heads : ∀ word ∈ words text.toList, ∀ c ∈ word.head?, c.toNat ∉ markedCapitals
  tails : ∀ word ∈ words text.toList, 'İ' ∉ word.tail

instance (text : String) : Decidable (Nameable text) :=
  decidable_of_iff
    ((text.toList.find? isAlphanumeric).all (fun c => isAlphabetic c || c.isDigit) ∧
      (words text.toList).all (fun word => word.head?.all (·.toNat ∉ markedCapitals)) ∧
      ∀ word ∈ words text.toList, 'İ' ∉ word.tail)
    (by simp only [nameable_iff, Option.all_eq_true, List.all_eq_true, Bool.or_eq_true,
      decide_eq_true_eq, Option.mem_def])

/-- The numbers in the ranges, as the bits of one number. Looking one up does not go through all
ranges before it. -/
def rangeBits (ranges : List (Nat × Nat)) : Nat :=
  ranges.foldr (fun range bits => bits ||| (1 <<< (range.2 + 1 - range.1) - 1) <<< range.1) 0

lemma testBit_rangeBits (ranges : List (Nat × Nat)) (n : Nat) :
    (rangeBits ranges).testBit n = ranges.any fun range => range.1 ≤ n && n ≤ range.2 := by
  induction ranges with
  | nil => simp [rangeBits]
  | cons range ranges ih =>
    have hbits : rangeBits (range :: ranges) =
        rangeBits ranges ||| (1 <<< (range.2 + 1 - range.1) - 1) <<< range.1 := rfl
    have hrange : (decide (range.1 ≤ n) && decide (n - range.1 < range.2 + 1 - range.1)) =
        (decide (range.1 ≤ n) && decide (n ≤ range.2)) := by
      rw [← Bool.decide_and, ← Bool.decide_and, decide_eq_decide]
      omega
    rw [hbits, Nat.testBit_or, ih, Nat.testBit_shiftLeft, Nat.one_shiftLeft,
      Nat.testBit_two_pow_sub_one, hrange, List.any_cons, Bool.or_comm]

def isLetterCode (n : Nat) : Bool := (rangeBits alphabeticRanges).testBit n

lemma isAlphabetic_eq (c : Char) : isAlphabetic c = isLetterCode c.toNat := by
  rw [isLetterCode, testBit_rangeBits, isAlphabetic, inRanges]

/-- The code points of a stepped range are letters and are moved to letters. -/
def keepsLetters : Nat × Nat × Nat × Int → Bool
  | (first, last, step, distance) =>
    (List.range' first ((last - first) / step + 1) step).all fun n =>
      isLetterCode n && isLetterCode (n + distance).toNat

/-- What the tables of letters and of their cases say, apart from which letters there are. -/
structure CaseTables : Prop where
  characters : ∀ range ∈ alphabeticRanges,
    range.2 < 0xD800 ∨ 0xDFFF < range.1 ∧ range.2 < 0x110000
  upper : upperShifts.all keepsLetters
  lower : lowerShifts.all keepsLetters
  expanded : upperExpansions.all fun (n, codes) => isLetterCode n && codes.head?.any isLetterCode
  unmarked : upperExpansions.all fun (n, codes) =>
    markedCapitals.contains n || codes.all isLetterCode
  marked : ∀ n ∈ markedCapitals, (upperExpansions.lookup n).any fun codes =>
    !(codes.map Char.ofNat).all isIdentifierPart
  dotted : (toLower 'İ').all isIdentifierPart = false
  sigma : isIdentifierPart 'ς'
  underscore : isAlphanumeric '_' = false
  dollar : isAlphanumeric '$' = false

lemma caseTables : CaseTables := by
  constructor <;> decide +kernel

/-- A letter in the table is a character, which the surrogates are not. -/
lemma isAlphabetic_ofNat {n : Nat} (h : isLetterCode n) : isAlphabetic (Char.ofNat n) := by
  have hvalid : n.isValidChar := by
    simp only [isLetterCode, testBit_rangeBits, List.any_eq_true, Bool.and_eq_true,
      decide_eq_true_eq] at h
    obtain ⟨range, hmem, hlow, hhigh⟩ := h
    rcases CaseTables.characters caseTables range hmem with hbelow | ⟨habove, hlast⟩
    · exact .inl (Nat.lt_of_le_of_lt hhigh hbelow)
    · exact .inr ⟨Nat.lt_of_lt_of_le habove hlow, Nat.lt_of_le_of_lt hhigh hlast⟩
  have hself : (Char.ofNat n).toNat = n := by
    rw [Char.ofNat, dif_pos hvalid]
    rfl
  rwa [isAlphabetic_eq, hself]

lemma toNat_of_isDigit {c : Char} (h : c.isDigit) : 48 ≤ c.toNat ∧ c.toNat ≤ 57 := by
  rw [Char.isDigit] at h
  simp only [ge_iff_le, Bool.and_eq_true, decide_eq_true_eq, UInt32.le_iff_toNat_le] at h
  exact h

lemma isIdentifierPart_of_isAlphanumeric {c : Char} (h : isAlphanumeric c) :
    isIdentifierPart c := by
  rw [isIdentifierPart, h, Bool.true_or, Bool.true_or]

lemma isIdentifierPart_of_isDigit {c : Char} (h : c.isDigit) : isIdentifierPart c := by
  have hdigits : (0x30, 0x39) ∈ numeralRanges := by decide
  have hnumeral : isNumeral c := by
    simp only [isNumeral, inRanges, List.any_eq_true, Bool.and_eq_true, decide_eq_true_eq]
    exact ⟨_, hdigits, toNat_of_isDigit h⟩
  exact isIdentifierPart_of_isAlphanumeric (by rw [isAlphanumeric, hnumeral, Bool.or_true])

section Case

variable {shifts : List (Nat × Nat × Nat × Int)} {c : Char}

lemma isLetterCode_shift (h : shifts.all keepsLetters) (n : Nat) :
    shift shifts n = n ∨ isLetterCode n ∧ isLetterCode (shift shifts n) := by
  unfold shift
  cases hfind : shifts.find? _ with
  | none => exact .inl rfl
  | some entry =>
    obtain ⟨first, last, step, distance⟩ := entry
    right
    have hkeeps := List.all_eq_true.mp h _ (List.mem_of_find?_eq_some hfind)
    have hin := List.find?_some hfind
    simp only [Bool.and_eq_true, decide_eq_true_eq, beq_iff_eq] at hin
    obtain ⟨⟨hfirst, hlast⟩, hstep⟩ := hin
    have hmem : n ∈ List.range' first ((last - first) / step + 1) step := by
      refine List.mem_range'.mpr ⟨(n - first) / step, ?_, ?_⟩
      · have := Nat.div_le_div_right (c := step) (Nat.sub_le_sub_right hlast first)
        omega
      · have := Nat.div_add_mod (n - first) step
        omega
    simpa using List.all_eq_true.mp hkeeps n hmem

lemma isAlphabetic_shift (h : shifts.all keepsLetters) (hc : isAlphabetic c) :
    isAlphabetic (Char.ofNat (shift shifts c.toNat)) := by
  rcases isLetterCode_shift h c.toNat with hsame | ⟨_, hletter⟩
  · rwa [hsame, Char.ofNat_toNat]
  · exact isAlphabetic_ofNat hletter

lemma isIdentifierPart_of_isLetterCode {n : Nat} (h : isLetterCode n) :
    isIdentifierPart (Char.ofNat n) :=
  isIdentifierPart_of_isAlphanumeric (by rw [isAlphanumeric, isAlphabetic_ofNat h, Bool.true_or])

lemma isIdentifierPart_shift (h : shifts.all keepsLetters) (hc : isAlphanumeric c) :
    isIdentifierPart (Char.ofNat (shift shifts c.toNat)) := by
  rcases isLetterCode_shift h c.toNat with hsame | ⟨_, hletter⟩
  · rw [hsame, Char.ofNat_toNat]
    exact isIdentifierPart_of_isAlphanumeric hc
  · exact isIdentifierPart_of_isLetterCode hletter

lemma toUpper_of_not_isAlphabetic (h : isAlphabetic c = false) : toUpper c = [c] := by
  rw [isAlphabetic_eq] at h
  have hlookup : upperExpansions.lookup c.toNat = none := by
    rw [List.lookup_eq_none_iff]
    intro entry hentry
    have hletter := List.all_eq_true.mp (CaseTables.expanded caseTables) entry hentry
    rw [Bool.and_eq_true] at hletter
    have hne : c.toNat ≠ entry.1 := by
      rintro heq
      rw [heq] at h
      cases hletter.1.symm.trans h
    exact bne_iff_ne.mpr hne
  have hshift : shift upperShifts c.toNat = c.toNat := by
    rcases isLetterCode_shift (CaseTables.upper caseTables) c.toNat with hsame | ⟨hletter, _⟩
    · exact hsame
    · cases hletter.symm.trans h
  rw [toUpper, mapCase, hlookup]
  simp only [hshift, Char.ofNat_toNat]

lemma toUpper_of_isAlphabetic (h : isAlphabetic c) :
    ∃ first marks, toUpper c = first :: marks ∧ isAlphabetic first := by
  unfold toUpper mapCase
  cases hlookup : upperExpansions.lookup c.toNat with
  | none => exact ⟨_, [], rfl, isAlphabetic_shift (CaseTables.upper caseTables) h⟩
  | some codes =>
    have hmem := Entries.mem_of_lookup hlookup
    have hhead := List.all_eq_true.mp (CaseTables.expanded caseTables) _ hmem
    rw [Bool.and_eq_true] at hhead
    cases codes with
    | nil => cases hhead.2
    | cons n marks => exact ⟨_, _, rfl, isAlphabetic_ofNat hhead.2⟩

lemma toUpper_parts (h : isAlphanumeric c) :
    (toUpper c).all isIdentifierPart ↔ c.toNat ∉ markedCapitals := by
  by_cases hmem : c.toNat ∈ markedCapitals
  case pos =>
    have hmarked := CaseTables.marked caseTables _ hmem
    unfold toUpper mapCase
    cases hlookup : upperExpansions.lookup c.toNat with
    | none =>
      rw [hlookup] at hmarked
      cases hmarked
    | some codes =>
      rw [hlookup, Option.any_some, Bool.not_eq_true'] at hmarked
      simp only [hmarked, hmem, Bool.false_eq_true, not_true]
  case neg =>
    refine iff_of_true ?_ hmem
    unfold toUpper mapCase
    cases hlookup : upperExpansions.lookup c.toNat with
    | none => simp [isIdentifierPart_shift (CaseTables.upper caseTables) h]
    | some codes =>
      have hentry := Entries.mem_of_lookup hlookup
      have hunmarked := List.all_eq_true.mp (CaseTables.unmarked caseTables) _ hentry
      rw [Bool.or_eq_true, List.contains_iff_mem] at hunmarked
      have hletters := List.all_eq_true.mp (hunmarked.resolve_left hmem)
      simp only [List.all_map, List.all_eq_true]
      exact fun n hn => isIdentifierPart_of_isLetterCode (hletters n hn)

lemma toLower_parts (h : isAlphanumeric c) :
    (toLower c).all isIdentifierPart ↔ c ≠ 'İ' := by
  by_cases hc : c = 'İ'
  · simp [hc, CaseTables.dotted caseTables]
  · have hne : c.toNat ≠ 0x130 := fun h => hc (by rw [← Char.ofNat_toNat c, h])
    have hlookup : lowerExpansions.lookup c.toNat = none := by
      rw [lowerExpansions, List.lookup_cons, beq_false_of_ne hne, List.lookup_nil]
    have hpart := isIdentifierPart_shift (CaseTables.lower caseTables) h
    simp [toLower, mapCase, hlookup, hc, hpart]

end Case

section Words

variable {cs : List Char}

lemma flatten_alphanumericRuns (cs : List Char) :
    (alphanumericRuns cs).flatten = cs.filter isAlphanumeric := by
  induction cs with
  | nil => rfl
  | cons c rest ih =>
    cases hc : isAlphanumeric c with
    | false => simp [alphanumericRuns, hc, ih]
    | true =>
      rw [List.filter_cons_of_pos hc, ← ih]
      simp only [alphanumericRuns, hc]
      cases alphanumericRuns rest <;> simp

lemma flatten_cutWords (mode : LetterMode) (word : List Char) {cs : List Char} (h : cs ≠ []) :
    (cutWords mode word cs).flatten = word ++ cs := by
  fun_induction cutWords mode word cs with
  | case1 => exact absurd rfl h
  | case2 => simp
  | case3 mode word c next rest _ ih => simp [ih]
  | case4 mode word c next rest _ _ ih => simp [ih]
  | case5 mode word c next rest _ _ ih => simp [ih]

/-- The words of a text hold its letters and numerals in their order. -/
lemma flatten_words (cs : List Char) : (words cs).flatten = cs.filter isAlphanumeric := by
  have hcut (run : List Char) : (cutWords .start [] run).flatten = run := by
    cases run with
    | nil => rfl
    | cons c rest => exact flatten_cutWords .start [] (List.cons_ne_nil c rest)
  rw [words, ← flatten_alphanumericRuns]
  generalize alphanumericRuns cs = runs
  induction runs with
  | nil => rfl
  | cons run runs ih =>
    rw [List.flatMap_cons, List.flatten_append, hcut, ih, List.flatten_cons]

lemma isAlphanumeric_of_word {word : List Char} (h : word ∈ words cs) {c : Char} (hc : c ∈ word) :
    isAlphanumeric c := by
  have hmem : c ∈ (words cs).flatten := List.mem_flatten.mpr ⟨word, h, hc⟩
  rw [flatten_words] at hmem
  exact (List.mem_filter.mp hmem).2

lemma lowerRest_parts {rest : List Char} (h : ∀ c ∈ rest, isAlphanumeric c) :
    (lowerRest rest).all isIdentifierPart ↔ 'İ' ∉ rest := by
  fun_induction lowerRest rest with
  | case1 => simp
  | case2 => simpa using CaseTables.sigma caseTables
  | case3 c rest _ ih =>
    obtain ⟨hc, hrest⟩ := List.forall_mem_cons.mp h
    rw [List.all_append, Bool.and_eq_true, toLower_parts hc, List.mem_cons, not_or]
    exact and_congr ne_comm (ih hrest)

lemma capitalize_parts {word : List Char} (h : ∀ c ∈ word, isAlphanumeric c) :
    (capitalize word).all isIdentifierPart ↔
      (∀ c ∈ word.head?, c.toNat ∉ markedCapitals) ∧ 'İ' ∉ word.tail := by
  cases word with
  | nil => simp [capitalize]
  | cons c rest =>
    obtain ⟨hc, hrest⟩ := List.forall_mem_cons.mp h
    rw [capitalize, List.all_append, Bool.and_eq_true, toUpper_parts hc, lowerRest_parts hrest]
    simp

lemma pascalCase_parts (cs : List Char) :
    (pascalCase cs).all isIdentifierPart ↔
      ∀ word ∈ words cs, (∀ c ∈ word.head?, c.toNat ∉ markedCapitals) ∧ 'İ' ∉ word.tail := by
  rw [pascalCase, List.all_flatMap, List.all_eq_true]
  exact forall₂_congr fun word hword => capitalize_parts fun c hc => isAlphanumeric_of_word hword hc

lemma capitalize_first {parts : List (List Char)} {c : Char} {rest : List Char}
    (h : parts.flatten = c :: rest) : ∃ others, parts.flatMap capitalize = toUpper c ++ others := by
  induction parts with
  | nil => cases h
  | cons word parts ih =>
    cases word with
    | nil => exact ih h
    | cons c' word =>
      cases h
      exact ⟨lowerRest word ++ parts.flatMap capitalize, by simp [capitalize]⟩

lemma pascalCase_of_find?_none (h : cs.find? isAlphanumeric = none) : pascalCase cs = [] := by
  have hwords : (words cs).flatten = [] := by
    rw [flatten_words, List.filter_eq_nil_iff]
    exact List.find?_eq_none.mp h
  rw [pascalCase, List.flatMap_eq_nil_iff]
  intro word hword
  rw [List.flatten_eq_nil_iff.mp hwords word hword]
  rfl

lemma pascalCase_of_find?_some {c : Char} (h : cs.find? isAlphanumeric = some c) :
    ∃ others, pascalCase cs = toUpper c ++ others := by
  rw [← List.head?_filter, ← flatten_words] at h
  obtain ⟨rest, hwords⟩ := List.head?_eq_some_iff.mp h
  exact capitalize_first hwords

end Words

lemma isIdentifier_cons (c : Char) (rest : List Char) :
    isIdentifier (String.ofList (c :: rest)) =
      (isIdentifierStart c && rest.all isIdentifierPart) := by
  simp only [isIdentifier, String.toList_ofList]

lemma isIdentifierStart_of_isAlphanumeric {c : Char} (h : isAlphanumeric c) :
    isIdentifierStart c = isAlphabetic c := by
  have hne {other : Char} (hother : isAlphanumeric other = false) : (c == other) = false := by
    refine beq_false_of_ne fun heq => ?_
    rw [heq, hother] at h
    cases h
  rw [isIdentifierStart, hne (CaseTables.underscore caseTables),
    hne (CaseTables.dollar caseTables), Bool.or_false, Bool.or_false]

lemma isIdentifier_typeIdentifier_of_cons {text : String} {c : Char} {rest : List Char}
    (h : pascalCase text.toList = c :: rest) :
    isIdentifier (typeIdentifier text) ↔
      (isIdentifierStart c ∨ c.isDigit) ∧ (c :: rest).all isIdentifierPart := by
  simp only [typeIdentifier, h]
  cases hdigit : c.isDigit with
  | true =>
    rw [if_pos rfl, isIdentifier_cons]
    simp [isIdentifierStart]
  | false =>
    have hpart : isIdentifierStart c → isIdentifierPart c := by
      simp only [isIdentifierStart, isIdentifierPart, isAlphanumeric, Bool.or_eq_true]
      tauto
    rw [if_neg Bool.false_ne_true, isIdentifier_cons, List.all_cons]
    simp only [Bool.and_eq_true, Bool.false_eq_true, or_false]
    exact and_congr_right fun hstart => (and_iff_right (hpart hstart)).symm

lemma isIdentifier_anonymous : isIdentifier anonymous := by decide

lemma isIdentifier_typeIdentifier (text : String) :
    isIdentifier (typeIdentifier text) ↔ Nameable text := by
  have hparts := pascalCase_parts text.toList
  have hnameable : Nameable text ↔ (∀ c ∈ text.toList.find? isAlphanumeric,
      isAlphabetic c ∨ c.isDigit) ∧ (pascalCase text.toList).all isIdentifierPart := by
    rw [hparts]
    exact ⟨fun h => ⟨h.start, fun word hword => ⟨h.heads word hword, h.tails word hword⟩⟩,
      fun h => ⟨h.1, fun word hword => (h.2 word hword).1, fun word hword => (h.2 word hword).2⟩⟩
  rw [hnameable]
  cases hfind : text.toList.find? isAlphanumeric with
  | none =>
    simp [typeIdentifier, pascalCase_of_find?_none hfind, isIdentifier_anonymous]
  | some c =>
    obtain ⟨others, hpascal⟩ := pascalCase_of_find?_some hfind
    have hc : isAlphanumeric c := List.find?_some hfind
    cases hletter : isAlphabetic c with
    | true =>
      obtain ⟨first, marks, hupper, hfirst⟩ := toUpper_of_isAlphabetic hletter
      rw [hupper, List.cons_append] at hpascal
      rw [isIdentifier_typeIdentifier_of_cons hpascal, hpascal]
      simp [isIdentifierStart, hfirst, hletter]
    | false =>
      rw [toUpper_of_not_isAlphabetic hletter, List.singleton_append] at hpascal
      rw [isIdentifier_typeIdentifier_of_cons hpascal, hpascal,
        isIdentifierStart_of_isAlphanumeric hc]
      simp [hletter]

lemma typeIdentifier_ne_empty (text : String) : typeIdentifier text ≠ "" := by
  rw [ne_eq, ← String.toList_eq_nil_iff, typeIdentifier]
  cases pascalCase text.toList with
  | nil => decide
  | cons c rest =>
    simp only
    split <;> simp

lemma isIdentifier_append {base digits : String} (hbase : base ≠ "")
    (hdigits : ∀ c ∈ digits.toList, c.isDigit) :
    isIdentifier (base ++ digits) = isIdentifier base := by
  have hall : digits.toList.all isIdentifierPart :=
    List.all_eq_true.mpr fun c hc => isIdentifierPart_of_isDigit (hdigits c hc)
  unfold isIdentifier
  rw [String.toList_append]
  cases hlist : base.toList with
  | nil => exact absurd (String.toList_eq_nil_iff.mp hlist) hbase
  | cons c rest => simp [List.all_append, hall]

end SchemaTypes.Text
