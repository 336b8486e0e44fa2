import SchemaTypes.Proofs.Json.Text
import SchemaTypes.Proofs.Text.Lines
import SchemaTypes.TypeScript.Declaration

/-! A generated file line by line. Nothing that a document puts into it can end a line or be taken
for a comment, and a comment ends where its line does. -/

namespace SchemaTypes

open Text

/-- The lines that a declaration is written with. -/
inductive Row where
  | blank
  | comment (indented : Bool) (description : String)
  | opening (name : String) (parents : List String)
  | field (key : String) (isOptional : Bool) (type : List Char)
  | index
  | closing
  | synonym (name : String) (target : List Char)

namespace Row

def isCode : Row → Bool
  | blank | comment _ _ => false
  | opening _ _ | field _ _ _ | index | closing | synonym _ _ => true

def isComment : Row → Bool
  | comment _ _ => true
  | _ => false

/-- The line without its line feed; `keyword` is what exports a declaration. -/
def chars (keyword : List Char) : Row → List Char
  | blank => []
  | comment indented description =>
    (if indented then [' ', ' '] else []) ++
      "/** ".toList ++ breakCommentEnds description.toList ++ " */".toList
  | opening name parents =>
    keyword ++ "interface ".toList ++ name.toList ++ extendsClause parents ++ [' ', '{']
  | field key isOptional type =>
    [' ', ' '] ++ fieldName key ++ (if isOptional then ['?'] else []) ++ [':', ' '] ++ type ++ [';']
  | index => [' ', ' '] ++ "[key: string]: any;".toList
  | closing => ['}']
  | synonym name target => keyword ++ "type ".toList ++ name.toList ++ " = ".toList ++ target ++ [';']

/-- Names are identifiers, and what is taken over from elsewhere has no line feed. -/
def WellFormed : Row → Prop
  | blank | index | closing => True
  | comment _ description => '\n' ∉ description.toList
  | opening name parents => isIdentifier name ∧ ∀ parent ∈ parents, isIdentifier parent
  | field _ _ type => '\n' ∉ type
  | synonym name target => isIdentifier name ∧ '\n' ∉ target

end Row

def commentRows (indented : Bool) (description : Option String) : List Row :=
  (description.map (Row.comment indented)).toList

def Field.rows (field : Field) : List Row :=
  commentRows true field.description ++ [.field field.key field.isOptional field.type.chars]

/-- The lines of the declaration itself. -/
def Shape.rows (name : String) : Shape → List Row
  | .interface parents fields indexed =>
    .opening name parents :: fields.flatMap Field.rows ++
      (if indexed then [.index] else []) ++ [.closing]
  | .union variants => [.synonym name (joinChars bar (variants.map TypeExpr.chars))]
  | .enumeration values => [.synonym name (joinChars bar (values.map Json.compactText))]
  | .synonym target => [.synonym name target.chars]

def Declaration.rows (d : Declaration) : List Row :=
  .blank :: commentRows false d.description ++ d.shape.rows d.name

section

variable (keyword : List Char)

lemma commentLine_eq_unlines (indented : Bool) (description : Option String) :
    commentLine (if indented then [' ', ' '] else []) description =
      unlines ((commentRows indented description).map (Row.chars keyword)) := by
  cases description with
  | none => rfl
  | some description =>
    have hend : " */\n".toList = " */".toList ++ ['\n'] := rfl
    rw [commentRows, Option.map_some, Option.toList_some, List.map_singleton, unlines_singleton]
    simp only [commentLine, Row.chars, hend, List.append_assoc]

lemma Field.lines_eq_unlines (field : Field) :
    field.lines = unlines (field.rows.map (Row.chars keyword)) := by
  have hcomment := commentLine_eq_unlines keyword true field.description
  rw [if_pos rfl] at hcomment
  rw [Field.lines, Field.rows, hcomment, List.map_append, unlines_append, List.map_singleton,
    unlines_singleton]
  simp only [Row.chars, List.append_assoc]
  rfl

lemma Declaration.lines_eq_unlines (d : Declaration) :
    d.lines keyword = unlines (d.rows.map (Row.chars keyword)) := by
  have hcomment := commentLine_eq_unlines keyword false d.description
  have hfields (fields : List Field) : fields.flatMap Field.lines =
      unlines ((fields.flatMap Field.rows).map (Row.chars keyword)) := by
    induction fields with
    | nil => rfl
    | cons field rest ih =>
      rw [List.flatMap_cons, ih, field.lines_eq_unlines keyword, List.flatMap_cons, List.map_append,
        unlines_append]
  have hindex : "  [key: string]: any;\n".toList =
      [' ', ' '] ++ "[key: string]: any;".toList ++ ['\n'] := rfl
  rw [if_neg Bool.false_ne_true] at hcomment
  rw [Declaration.lines, Declaration.rows, hcomment]
  cases d.shape with
  | interface parents fields indexed =>
    cases indexed <;>
      simp [Shape.rows, hfields, hindex, Row.chars, unlines]
  | union variants => simp [Shape.rows, typeLine, Row.chars, unlines]
  | enumeration values => simp [Shape.rows, typeLine, Row.chars, unlines]
  | synonym target => simp [Shape.rows, typeLine, Row.chars, unlines]

end

lemma mem_breakCommentEnds {c : Char} {cs : List Char} (h : c ∈ breakCommentEnds cs) :
    c = '\\' ∨ c ∈ cs := by
  fun_induction breakCommentEnds cs with
  | case1 rest ih =>
    simp only [List.mem_cons] at h ⊢
    tauto
  | case2 d rest _ ih =>
    simp only [List.mem_cons] at h ⊢
    tauto
  | case3 => exact .inr h

lemma newline_not_mem_fieldName (key : String) : '\n' ∉ fieldName key := by
  unfold fieldName
  split
  · exact mark_not_mem_identifier ‹_› (by decide)
  · exact newline_not_mem_jsonLiteral _

lemma fieldName_head (key : String) :
    ∃ c rest, fieldName key = c :: rest ∧ (c = '"' ∨ isIdentifierPart c) := by
  unfold fieldName
  split
  · rename_i hkey
    have hparts := isIdentifierPart_of_isIdentifier hkey
    cases heq : key.toList with
    | nil => simp [isIdentifier, heq] at hkey
    | cons c rest => exact ⟨c, rest, rfl, .inr (hparts c (by simp [heq]))⟩
  · exact ⟨'"', _, rfl, .inl rfl⟩

lemma joinChars_eq_intercalate (separator : List Char) (parts : List (List Char)) :
    joinChars separator parts = separator.intercalate parts := by
  fun_induction joinChars separator parts with
  | case1 => rfl
  | case2 cs => simp
  | case3 cs rest hrest ih =>
    rw [ih, List.intercalate_cons_of_ne_nil hrest]

lemma newline_not_mem_joinChars {separator : List Char} (hseparator : '\n' ∉ separator)
    {parts : List (List Char)} (hparts : ∀ part ∈ parts, '\n' ∉ part) :
    '\n' ∉ joinChars separator parts := by
  rw [joinChars_eq_intercalate]
  intro h
  rcases mem_of_mem_intercalate h with h | ⟨part, hpart, h⟩
  · exact hseparator h
  · exact hparts part hpart h

lemma newline_not_mem_extendsClause {parents : List String}
    (h : ∀ parent ∈ parents, isIdentifier parent) : '\n' ∉ extendsClause parents := by
  unfold extendsClause
  split
  · exact List.not_mem_nil
  · rw [List.mem_append, not_or]
    refine ⟨by decide, newline_not_mem_joinChars (by decide) fun part hpart => ?_⟩
    obtain ⟨parent, hparent, rfl⟩ := List.mem_map.mp hpart
    exact mark_not_mem_identifier (h parent hparent) (by decide)

/-- A line that starts a comment, but for spaces. -/
def isCommentLine (line : List Char) : Bool :=
  "/**".toList.isPrefixOf (line.dropWhile (· == ' '))

/-- Nothing stands behind a comment end. -/
def ClosesLast (line : List Char) : Prop :=
  ∀ before rest, line = before ++ '*' :: '/' :: rest → rest = []

lemma ClosesLast.cons {c : Char} {line : List Char} (h : ClosesLast line)
    (hc : c = '*' → ∀ rest, line = '/' :: rest → rest = []) : ClosesLast (c :: line) := by
  intro before rest heq
  cases before with
  | nil =>
    obtain ⟨hstar, hrest⟩ := List.cons.inj heq
    exact hc hstar rest hrest
  | cons d before => exact h before rest (List.cons.inj heq).2

lemma breakCommentEnds_eq_slash {cs tail rest : List Char} (htail : ∀ rest, tail ≠ '/' :: rest)
    (h : breakCommentEnds cs ++ tail = '/' :: rest) : ∃ rest, cs = '/' :: rest := by
  unfold breakCommentEnds at h
  split at h
  · simp at h
  · rename_i c cs _
    rw [List.cons_append, List.cons.injEq] at h
    exact ⟨cs, by rw [h.1]⟩
  · exact absurd h (htail rest)

lemma closesLast_broken (cs : List Char) :
    ClosesLast (breakCommentEnds cs ++ [' ', '*', '/']) := by
  fun_induction breakCommentEnds cs with
  | case1 rest ih => exact ((ih.cons (by simp)).cons (by simp)).cons (by simp)
  | case2 c rest hnot ih =>
    refine ih.cons fun hstar slash heq => ?_
    obtain ⟨rest', rfl⟩ := breakCommentEnds_eq_slash (by simp) heq
    exact absurd rfl (hnot rest' hstar)
  | case3 =>
    have hnil : ClosesLast [] := fun before rest h => by simp at h
    exact ((hnil.cons (by simp)).cons (by simp)).cons (by simp)

namespace Row

variable {row : Row}

lemma WellFormed.newline_not_mem_chars (h : row.WellFormed) (exported : Bool) :
    '\n' ∉ row.chars (exportKeyword exported) := by
  have hkeyword : '\n' ∉ exportKeyword exported := by cases exported <;> decide
  have hinterface : '\n' ∉ "interface ".toList := by decide
  have htype : '\n' ∉ "type ".toList := by decide
  have hequals : '\n' ∉ " = ".toList := by decide
  cases row with
  | blank => exact List.not_mem_nil
  | comment indented description =>
    have hbegin : '\n' ∉ "/** ".toList := by decide
    have hend : '\n' ∉ " */".toList := by decide
    have hindent : '\n' ∉ if indented then [' ', ' '] else [] := by cases indented <;> decide
    have hbroken : '\n' ∉ breakCommentEnds description.toList := fun hmem =>
      (mem_breakCommentEnds hmem).elim (by decide) h
    simp only [chars, List.mem_append, not_or]
    exact ⟨⟨⟨hindent, hbegin⟩, hbroken⟩, hend⟩
  | opening name parents =>
    have hname : '\n' ∉ name.toList := mark_not_mem_identifier h.1 (by decide)
    simp only [chars, List.mem_append, not_or]
    exact ⟨⟨⟨⟨hkeyword, hinterface⟩, hname⟩, newline_not_mem_extendsClause h.2⟩, by decide⟩
  | field key isOptional type =>
    have hmark : '\n' ∉ if isOptional then ['?'] else [] := by cases isOptional <;> decide
    simp only [chars, List.mem_append, not_or]
    exact ⟨⟨⟨⟨⟨by decide, newline_not_mem_fieldName key⟩, hmark⟩, by decide⟩, h⟩, by decide⟩
  | index => simp [chars]
  | closing => simp [chars]
  | synonym name target =>
    have hname : '\n' ∉ name.toList := mark_not_mem_identifier h.1 (by decide)
    simp only [chars, List.mem_append, not_or]
    exact ⟨⟨⟨⟨⟨hkeyword, htype⟩, hname⟩, hequals⟩, h.2⟩, by decide⟩

lemma isComment_iff :
    row.isComment ↔ ∃ indented description, row = comment indented description := by
  cases row <;> simp [isComment]

lemma isCommentLine_comment (keyword : List Char) (indented : Bool) (description : String) :
    isCommentLine ((comment indented description).chars keyword) := by
  cases indented <;> rfl

lemma isCommentLine_code (h : row.isCode) (exported : Bool) :
    isCommentLine (row.chars (exportKeyword exported)) = false ∧
      (row.chars (exportKeyword exported)).all isBlank = false := by
  cases row with
  | blank => cases h
  | comment indented description => cases h
  | opening name parents => cases exported <;> exact ⟨rfl, rfl⟩
  | field key isOptional type =>
    obtain ⟨c, rest, heq, hc⟩ := fieldName_head key
    have hspace : (c == ' ') = false := by
      rcases hc with rfl | hc
      · rfl
      · exact beq_eq_false_iff_ne.mpr (ne_mark hc (by decide))
    have hslash : ('/' == c) = false := by
      rcases hc with rfl | hc
      · rfl
      · exact beq_eq_false_iff_ne.mpr (ne_mark hc (by decide)).symm
    constructor
    · simp [isCommentLine, chars, heq, hspace, hslash, List.isPrefixOf]
    · rw [List.all_eq_false]
      exact ⟨';', List.mem_append_right _ (List.mem_singleton_self _), by decide⟩
  | index => exact ⟨rfl, rfl⟩
  | closing => exact ⟨rfl, rfl⟩
  | synonym name target => cases exported <;> exact ⟨rfl, rfl⟩

lemma isCommentLine_chars (row : Row) (exported : Bool) :
    isCommentLine (row.chars (exportKeyword exported)) = row.isComment := by
  cases row with
  | comment indented description => exact isCommentLine_comment _ _ _
  | blank => rfl
  | opening | field | index | closing | synonym => exact (isCommentLine_code rfl exported).1

/-- A comment end comes only where its line ends. -/
lemma comment_closesLast (keyword : List Char) (indented : Bool) (description : String) :
    ClosesLast ((comment indented description).chars keyword) := by
  have hbegin : ClosesLast ('/' :: '*' :: '*' :: ' ' ::
      (breakCommentEnds description.toList ++ [' ', '*', '/'])) := by
    refine .cons (.cons (.cons (.cons (closesLast_broken _) ?_) ?_) ?_) ?_ <;> simp
  cases indented with
  | false => simpa [chars] using hbegin
  | true =>
    have hindented := (hbegin.cons (c := ' ') (by simp)).cons (c := ' ') (by simp)
    simpa [chars] using hindented

end Row

/-- The first line of every file, without its line feed. -/
def headerLine : List Char := "// Generated by jstr. Do not edit.".toList

/-- The rows of all declarations of a file. -/
def fileRows (ds : List Declaration) : List Row := ds.flatMap Declaration.rows

lemma fileText_eq_unlines (exported : Bool) (ds : List Declaration) :
    (fileText exported ds).toList =
      unlines (headerLine :: (fileRows ds).map (Row.chars (exportKeyword exported))) := by
  have hheader : fileHeader.toList = headerLine ++ ['\n'] := rfl
  have hlines : ds.flatMap (Declaration.lines (exportKeyword exported)) =
      unlines ((fileRows ds).map (Row.chars (exportKeyword exported))) := by
    induction ds with
    | nil => rfl
    | cons d ds ih =>
      rw [List.flatMap_cons, ih, d.lines_eq_unlines, fileRows, fileRows, List.flatMap_cons,
        List.map_append, unlines_append]
  rw [fileText, String.toList_ofList, hheader, hlines, unlines_cons]
  simp

/-- The lines of a file are its header, its rows, and what stands behind the last line feed. -/
lemma splitLines_fileText {ds : List Declaration} (h : ∀ row ∈ fileRows ds, row.WellFormed)
    (exported : Bool) :
    splitLines (fileText exported ds).toList =
      headerLine :: (fileRows ds).map (Row.chars (exportKeyword exported)) ++ [[]] := by
  rw [fileText_eq_unlines]
  refine splitLines_unlines (List.forall_mem_cons.mpr ⟨by decide, fun line hline => ?_⟩)
  obtain ⟨row, hrow, rfl⟩ := List.mem_map.mp hline
  exact (h row hrow).newline_not_mem_chars exported

end SchemaTypes
