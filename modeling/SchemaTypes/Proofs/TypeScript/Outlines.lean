import SchemaTypes.Proofs.TypeScript.FileLines

/-! A generated file reads back. From its lines of code one finds what was declared, and from its
comments nothing else comes. -/

namespace SchemaTypes

open Text

structure FieldOutline where
  key : String
  isOptional : Bool
  type : List Char

/-- A declaration without its descriptions, with the text of its types. -/
inductive Outline where
  | interface (name : String) (parents : List String) (fields : List FieldOutline) (indexed : Bool)
  | synonym (name : String) (target : List Char)

def Field.outline (field : Field) : FieldOutline := ⟨field.key, field.isOptional, field.type.chars⟩

def Declaration.outline (d : Declaration) : Outline :=
  match d.shape with
  | .interface parents fields indexed =>
    .interface d.name parents (fields.map Field.outline) indexed
  | .union variants => .synonym d.name (joinChars bar (variants.map TypeExpr.chars))
  | .enumeration values => .synonym d.name (joinChars bar (values.map Json.compactText))
  | .synonym target => .synonym d.name target.chars

/-- The comments of a declaration and of its fields, in the order in which they are written. -/
def Declaration.comments (d : Declaration) : List (List Char) :=
  (d.rows.filter Row.isComment).map (Row.chars [])

section

/-! Reading a line. -/

/-- A name and what follows it. -/
def readName (cs : List Char) : String × List Char :=
  (String.ofList (cs.takeWhile isIdentifierPart), cs.dropWhile isIdentifierPart)

/-- Names between commas and spaces. -/
def readNames (cs : List Char) : List String :=
  ((cs.filter (· != ' ')).splitOn ',').map String.ofList

/-- A key, which is a string literal if it starts with a quote, and what follows it. -/
def readKey : List Char → Option (String × List Char)
  | '"' :: rest =>
    match Json.scanString [] rest with
    | .ok (key, rest) => some (String.ofList key, rest)
    | .error _ => none
  | cs => some (readName cs)

def readField (cs : List Char) : Option Row := do
  let (key, rest) ← readKey cs
  match rest with
  | '?' :: ':' :: ' ' :: type => some (.field key true type.dropLast)
  | ':' :: ' ' :: type => some (.field key false type.dropLast)
  | _ => none

def readInterface (cs : List Char) : Row :=
  let (name, rest) := readName cs
  match rest.dropPrefix? " extends ".toList with
  | some parents => .opening name (readNames parents.dropLast.dropLast)
  | none => .opening name []

def readSynonym (cs : List Char) : Option Row := do
  let (name, rest) := readName cs
  return .synonym name (← rest.dropPrefix? " = ".toList).dropLast

def readHead (line : List Char) : Option Row :=
  match line.dropPrefix? "interface ".toList with
  | some rest => some (readInterface rest)
  | none => line.dropPrefix? "type ".toList >>= readSynonym

def readRow : List Char → Option Row
  | ['}'] => some .closing
  | ' ' :: ' ' :: '[' :: _ => some .index
  | ' ' :: ' ' :: rest => readField rest
  | line => readHead ((line.dropPrefix? "export ".toList).getD line)

/-- The declarations that rows of code make; the first argument is an interface that is open. -/
def assemble : Option (String × List String × List FieldOutline × Bool) → List Row →
    Option (List Outline)
  | none, [] => some []
  | none, .synonym name target :: rest => (assemble none rest).map (.synonym name target :: ·)
  | none, .opening name parents :: rest => assemble (some (name, parents, [], false)) rest
  | some (name, parents, fields, indexed), .field key isOptional type :: rest =>
    assemble (some (name, parents, fields ++ [⟨key, isOptional, type⟩], indexed)) rest
  | some (name, parents, fields, _), .index :: rest =>
    assemble (some (name, parents, fields, true)) rest
  | some (name, parents, fields, indexed), .closing :: rest =>
    (assemble none rest).map (.interface name parents fields indexed :: ·)
  | _, _ => none

/-- The lines behind the header that are neither blank nor comments. -/
def codeLines (text : String) : List (List Char) :=
  (splitLines text.toList).tail.filter fun line => !line.all isBlank && !isCommentLine line

def commentLines (text : String) : List (List Char) :=
  (splitLines text.toList).tail.filter isCommentLine

/-- The declarations of a file. -/
def readFile (text : String) : Option (List Outline) := do
  assemble none (← (codeLines text).mapM readRow)

end

lemma dropPrefix?_append (start rest : List Char) :
    (start ++ rest).dropPrefix? start = some rest := by
  rw [List.dropPrefix?_eq_some_iff]
  exact ⟨start, rfl, beq_self_eq_true start⟩

lemma readName_append {name : String} (h : isIdentifier name) {c : Char}
    (hc : isIdentifierPart c = false) (rest : List Char) :
    readName (name.toList ++ c :: rest) = (name, c :: rest) := by
  have hparts := isIdentifierPart_of_isIdentifier h
  rw [readName, List.takeWhile_append_of_pos hparts, List.dropWhile_append_of_pos hparts]
  simp [hc]

lemma readKey_fieldName (key : String) {c : Char} (hc : isIdentifierPart c = false)
    (rest : List Char) : readKey (fieldName key ++ c :: rest) = some (key, c :: rest) := by
  unfold fieldName
  split
  · rename_i hkey
    have hquote : ∀ rest, key.toList ≠ '"' :: rest := fun rest heq =>
      mark_not_mem_identifier (c := '"') hkey (by decide) (by simp [heq])
    cases heq : key.toList with
    | nil => simp [isIdentifier, heq] at hkey
    | cons first others =>
      have hfirst : first ≠ '"' := fun h => hquote others (h ▸ heq)
      have hname := readName_append hkey hc rest
      rw [heq] at hname
      rw [List.cons_append, readKey.eq_2 _ (by simpa using hfirst), ← List.cons_append, hname]
  · obtain ⟨body, hbody, hscan⟩ := Json.jsonLiteral_reads_back key.toList (c :: rest)
    rw [hbody, List.cons_append, readKey, hscan]
    simp

lemma filter_intercalate {parts : List (List Char)} (h : ∀ part ∈ parts, ' ' ∉ part) :
    ([',', ' '].intercalate parts).filter (· != ' ') = [','].intercalate parts := by
  have hkeep {part : List Char} (hpart : ' ' ∉ part) : part.filter (· != ' ') = part :=
    List.filter_eq_self.mpr fun c hc => bne_iff_ne.mpr fun heq => hpart (heq ▸ hc)
  induction parts with
  | nil => rfl
  | cons part parts ih =>
    obtain ⟨hpart, hparts⟩ := List.forall_mem_cons.mp h
    cases parts with
    | nil => simp [hkeep hpart]
    | cons next parts =>
      have hseparator : [',', ' '].filter (· != ' ') = [','] := by decide
      rw [List.intercalate_cons_cons, List.intercalate_cons_cons, List.filter_append,
        List.filter_append, hkeep hpart, hseparator, ih hparts]

lemma readNames_joinChars {parents : List String} (h : ∀ parent ∈ parents, isIdentifier parent)
    (hne : parents ≠ []) :
    readNames (joinChars [',', ' '] (parents.map String.toList)) = parents := by
  have hmark {c : Char} (hc : c ∈ marks) :
      ∀ part ∈ parents.map String.toList, c ∉ part := by
    intro part hpart
    obtain ⟨parent, hparent, rfl⟩ := List.mem_map.mp hpart
    exact mark_not_mem_identifier (h parent hparent) hc
  rw [readNames, joinChars_eq_intercalate, filter_intercalate (hmark (by decide)),
    List.splitOn_intercalate ',' (hmark (by decide)) (by simpa using hne)]
  simp [Function.comp_def]

lemma readInterface_opening {name : String} {parents : List String} (hname : isIdentifier name)
    (hparents : ∀ parent ∈ parents, isIdentifier parent) :
    readInterface (name.toList ++ (extendsClause parents ++ [' ', '{'])) =
      .opening name parents := by
  have hspace : isIdentifierPart ' ' = false := isIdentifierPart_mark (by decide)
  cases parents with
  | nil =>
    have hread := readName_append hname hspace ['{']
    simp only [readInterface, extendsClause, List.nil_append, hread]
    rfl
  | cons parent rest =>
    have hread := readName_append hname hspace
      ("extends ".toList ++
        (joinChars [',', ' '] ((parent :: rest).map String.toList) ++ [' ', '{']))
    have hextends : extendsClause (parent :: rest) ++ [' ', '{'] = ' ' :: ("extends ".toList ++
        (joinChars [',', ' '] ((parent :: rest).map String.toList) ++ [' ', '{'])) := by
      simp [extendsClause]
    have hdrop := dropPrefix?_append " extends ".toList
      (joinChars [',', ' '] ((parent :: rest).map String.toList) ++ [' ', '{'])
    have hlast (cs : List Char) : (cs ++ [' ', '{']).dropLast.dropLast = cs := by simp
    rw [readInterface, hextends, hread]
    simp only
    rw [show ' ' :: ("extends ".toList ++ _) = " extends ".toList ++ _ from rfl, hdrop]
    simp only [hlast, readNames_joinChars hparents (List.cons_ne_nil _ _)]

lemma readSynonym_append {name : String} (hname : isIdentifier name) (target : List Char) :
    readSynonym (name.toList ++ (" = ".toList ++ (target ++ [';']))) =
      some (.synonym name target) := by
  have hspace : isIdentifierPart ' ' = false := isIdentifierPart_mark (by decide)
  have hread : readName (name.toList ++ (" = ".toList ++ (target ++ [';']))) =
      (name, " = ".toList ++ (target ++ [';'])) := readName_append hname hspace _
  rw [readSynonym, hread]
  simp only [dropPrefix?_append, Option.bind_eq_bind, Option.bind_some, List.dropLast_concat]
  rfl

lemma readField_append (key : String) (isOptional : Bool) (type : List Char) :
    readField (fieldName key ++ ((if isOptional then ['?'] else []) ++ ([':', ' '] ++
      (type ++ [';'])))) = some (.field key isOptional type) := by
  have hquestion : isIdentifierPart '?' = false := isIdentifierPart_mark (by decide)
  have hcolon : isIdentifierPart ':' = false := isIdentifierPart_mark (by decide)
  cases isOptional with
  | true =>
    have hread := readKey_fieldName key hquestion (':' :: ' ' :: (type ++ [';']))
    simp [readField, hread]
  | false =>
    have hread := readKey_fieldName key hcolon (' ' :: (type ++ [';']))
    simp [readField, hread]

lemma readRow_exported (exported : Bool) {c : Char} (hc : c = 'i' ∨ c = 't') (cs : List Char) :
    readRow (exportKeyword exported ++ c :: cs) = readHead (c :: cs) := by
  have hexport : readRow ("export ".toList ++ c :: cs) =
      readHead ((("export ".toList ++ c :: cs).dropPrefix? "export ".toList).getD _) := rfl
  cases exported with
  | false => rcases hc with rfl | rfl <;> rfl
  | true => rw [exportKeyword, if_pos rfl, hexport, dropPrefix?_append, Option.getD_some]

lemma readRow_chars {row : Row} (h : row.WellFormed) (hcode : row.isCode) (exported : Bool) :
    readRow (row.chars (exportKeyword exported)) = some row := by
  cases row with
  | blank => cases hcode
  | comment indented description => cases hcode
  | opening name parents =>
    have hrow (cs : List Char) : readRow (exportKeyword exported ++ ("interface ".toList ++ cs)) =
        readHead ("interface ".toList ++ cs) := readRow_exported exported (.inl rfl) _
    simp only [Row.chars, List.append_assoc, hrow, readHead, dropPrefix?_append,
      readInterface_opening h.1 h.2]
  | field key isOptional type =>
    obtain ⟨c, rest, heq, hc⟩ := fieldName_head key
    have hbracket : c ≠ '[' := by
      rcases hc with rfl | hc
      · decide
      · exact ne_mark hc (by decide)
    have hrow (cs : List Char) : readRow (' ' :: ' ' :: c :: cs) = readField (c :: cs) :=
      readRow.eq_3 _ fun _ h => hbracket (List.cons.inj h).1
    have hfield := readField_append key isOptional type
    rw [heq, List.cons_append] at hfield
    simp only [Row.chars, heq, List.append_assoc, List.cons_append, List.nil_append, hrow]
    simpa only [List.append_assoc, List.cons_append, List.nil_append] using hfield
  | index => rfl
  | closing => rfl
  | synonym name target =>
    have hrow (cs : List Char) : readRow (exportKeyword exported ++ ("type ".toList ++ cs)) =
        readHead ("type ".toList ++ cs) := readRow_exported exported (.inr rfl) _
    have hnot (cs : List Char) :
        ("type ".toList ++ cs).dropPrefix? "interface ".toList = none := rfl
    simp only [Row.chars, List.append_assoc, hrow, readHead, hnot, dropPrefix?_append]
    exact readSynonym_append h.1 target

@[simp] lemma filter_isCode_commentRows (indented : Bool) (description : Option String) :
    (commentRows indented description).filter Row.isCode = [] := by
  cases description <;> rfl

lemma assemble_fields (name : String) (parents : List String) (fields : List Field)
    (before : List FieldOutline) (indexed : Bool) (rest : List Row) :
    assemble (some (name, parents, before, indexed))
        ((fields.flatMap Field.rows).filter Row.isCode ++ rest) =
      assemble (some (name, parents, before ++ fields.map Field.outline, indexed)) rest := by
  induction fields generalizing before with
  | nil => simp
  | cons field fields ih =>
    have hfield : field.rows.filter Row.isCode =
        [.field field.key field.isOptional field.type.chars] := by
      simp [Field.rows, Row.isCode]
    rw [List.flatMap_cons, List.filter_append, hfield, List.append_assoc, List.singleton_append,
      assemble, ih]
    simp [Field.outline]

/-- The code of a declaration is put together to it, and the rest is left to read. -/
lemma assemble_rows (d : Declaration) (rest : List Row) :
    assemble none (d.rows.filter Row.isCode ++ rest) =
      (assemble none rest).map (d.outline :: ·) := by
  have hcode : d.rows.filter Row.isCode = (d.shape.rows d.name).filter Row.isCode := by
    simp [Declaration.rows, Row.isCode]
  rw [hcode, Declaration.outline]
  cases d.shape with
  | interface parents fields indexed =>
    have hopening : Row.isCode (.opening d.name parents) := rfl
    rw [Shape.rows, List.cons_append, List.cons_append, List.filter_cons_of_pos hopening,
      List.cons_append, assemble, List.filter_append, List.filter_append, List.append_assoc,
      List.append_assoc, assemble_fields, List.nil_append]
    cases indexed <;> rfl
  | union variants => rfl
  | enumeration values => rfl
  | synonym target => rfl

lemma assemble_fileRows (ds : List Declaration) :
    assemble none ((fileRows ds).filter Row.isCode) = some (ds.map Declaration.outline) := by
  induction ds with
  | nil => rfl
  | cons d ds ih =>
    rw [fileRows, List.flatMap_cons, List.filter_append, assemble_rows, ← fileRows, ih]
    rfl

section

variable {ds : List Declaration} (h : ∀ row ∈ fileRows ds, row.WellFormed) (exported : Bool)

include h

lemma codeLines_fileText :
    codeLines (fileText exported ds) =
      ((fileRows ds).filter Row.isCode).map (Row.chars (exportKeyword exported)) := by
  have hline : ∀ row : Row,
      (!(row.chars (exportKeyword exported)).all isBlank &&
        !isCommentLine (row.chars (exportKeyword exported))) = row.isCode := by
    intro row
    cases hcode : row.isCode with
    | true =>
      obtain ⟨hcomment, hblank⟩ := Row.isCommentLine_code hcode exported
      simp only [hcomment, hblank, Bool.not_false, Bool.and_self]
    | false =>
      cases row with
      | blank => rfl
      | comment indented description =>
        simp only [Row.isCommentLine_comment, Bool.not_true, Bool.and_false]
      | opening | field | index | closing | synonym => cases hcode
  rw [codeLines, splitLines_fileText h, List.cons_append, List.tail_cons, List.filter_append,
    List.filter_map]
  simp only [Function.comp_def, hline]
  exact List.append_nil _

lemma commentLines_fileText :
    commentLines (fileText exported ds) =
      ((fileRows ds).filter Row.isComment).map (Row.chars (exportKeyword exported)) := by
  rw [commentLines, splitLines_fileText h, List.cons_append, List.tail_cons, List.filter_append,
    List.filter_map]
  simp only [Function.comp_def, Row.isCommentLine_chars]
  exact List.append_nil _

lemma readFile_fileText :
    readFile (fileText exported ds) = some (ds.map Declaration.outline) := by
  have hread (rows : List Row) (hrows : ∀ row ∈ rows, row.WellFormed ∧ row.isCode) :
      (rows.map (Row.chars (exportKeyword exported))).mapM readRow = some rows := by
    induction rows with
    | nil => rfl
    | cons row rows ih =>
      obtain ⟨⟨hrow, hcode⟩, hrest⟩ := List.forall_mem_cons.mp hrows
      rw [List.map_cons, List.mapM_cons, readRow_chars hrow hcode, ih hrest]
      rfl
  have hrows := hread ((fileRows ds).filter Row.isCode) fun row hrow =>
    ⟨h row (List.mem_filter.mp hrow).1, (List.mem_filter.mp hrow).2⟩
  rw [readFile, codeLines_fileText h, hrows]
  exact assemble_fileRows ds

end

/-- The export keyword is no part of a comment. -/
lemma comments_chars (ds : List Declaration) (keyword : List Char) :
    ((fileRows ds).filter Row.isComment).map (Row.chars keyword) =
      ds.flatMap Declaration.comments := by
  have hchars : ∀ row : Row, row.isComment → row.chars keyword = row.chars [] := by
    intro row hrow
    cases row with
    | comment indented description => rfl
    | blank | opening | field | index | closing | synonym => cases hrow
  rw [fileRows, List.filter_flatMap, List.map_flatMap]
  refine congrArg (List.flatMap · ds) (funext fun d => ?_)
  exact List.map_congr_left fun row hrow => hchars row (List.mem_filter.mp hrow).2

namespace Document

open SessionM

variable {d : Document} {env : Environment} {files : List GeneratedFile}

lemma emit_of_declare_error {e : Failure} {s t : Session} (h : d.declare env s = (.error e, t)) :
    d.emit env s = (.error e, t) := by
  rw [declare, bind_apply] at h
  rw [emit, bind_apply]
  rcases hregister : d.register env s with ⟨e' | _, u⟩
  · rw [hregister] at h
    cases h
    rfl
  · rw [hregister] at h
    have hdeclarations : declarations env u = (.error e, t) := h
    have hfile : SessionM.emit env u = (.error e, t) := by
      rw [SessionM.emit, bind_ok read_apply, bind_apply, hdeclarations]
    simp only [bind_apply, hfile]

lemma declare_of_emit (h : (d.emit env { graph := d.graph }).1 = .ok files) :
    ∃ ds t, d.declare env { graph := d.graph } = (.ok ds, t) ∧
      files = [⟨"types.ts", fileText env.typescript.exported ds⟩] := by
  rcases hdeclare : d.declare env { graph := d.graph } with ⟨e | ds, t⟩
  · rw [emit_of_declare_error hdeclare] at h
    cases h
  · rw [emit_of_declare hdeclare] at h
    exact ⟨ds, t, rfl, (Except.ok.inj h).symm⟩

/-- A generated file is the text of the declarations, and these are read back from its lines of
code. Its comments are those of the declarations, each on a line of its own. -/
theorem file_reads_back (d : Document) (env : Environment) (files : List GeneratedFile)
    (h : (d.emit env { graph := d.graph }).1 = .ok files) :
    ∃ ds, (d.declare env { graph := d.graph }).1 = .ok ds ∧
      files = [⟨"types.ts", fileText env.typescript.exported ds⟩] ∧
      readFile (fileText env.typescript.exported ds) = some (ds.map Declaration.outline) ∧
      commentLines (fileText env.typescript.exported ds) = ds.flatMap Declaration.comments ∧
      ∀ line ∈ commentLines (fileText env.typescript.exported ds),
        ['*', '/'] <:+ line ∧ ClosesLast line := by
  obtain ⟨ds, t, hdeclare, hfiles⟩ := declare_of_emit h
  have hrows := declared_rows_wellFormed hdeclare
  have hcomments := commentLines_fileText hrows env.typescript.exported
  refine ⟨ds, by rw [hdeclare], hfiles, readFile_fileText hrows _, ?_, fun line hline => ?_⟩
  · rw [hcomments, comments_chars]
  · rw [hcomments] at hline
    obtain ⟨row, hrow, rfl⟩ := List.mem_map.mp hline
    obtain ⟨indented, description, rfl⟩ := Row.isComment_iff.mp (List.mem_filter.mp hrow).2
    refine ⟨?_, Row.comment_closesLast _ _ _⟩
    have hend : ['*', '/'] <:+ " */".toList := ⟨[' '], rfl⟩
    exact hend.trans (List.suffix_append _ _)

/-- Descriptions and a key that look like the end of what they stand in. -/
def forger : Document where
  graph := ⟨#[
    { types := [.object], description := some "*/\ninterface Fake \x7b",
      properties := [("a?: any;\n\x7d\n", 1)] },
    { types := [.string], description := some "/** */", isProperty := true }]⟩

theorem forger_file_reads_back :
    ∃ files, (forger.emit (.ofSettings {}) { graph := forger.graph }).1 = .ok files ∧
      ∃ ds, (forger.declare (.ofSettings {}) { graph := forger.graph }).1 = .ok ds ∧
        files = [⟨"types.ts", fileText true ds⟩] ∧
        readFile (fileText true ds) = some (ds.map Declaration.outline) ∧
        commentLines (fileText true ds) = ds.flatMap Declaration.comments ∧
        ∀ line ∈ commentLines (fileText true ds), ['*', '/'] <:+ line ∧ ClosesLast line := by
  have hemit : ∃ files,
      (forger.emit (.ofSettings {}) { graph := forger.graph }).1 = .ok files ∧ True := by
    decide +kernel
  obtain ⟨files, hfiles, _⟩ := hemit
  exact ⟨files, hfiles, file_reads_back forger (.ofSettings {}) files hfiles⟩

end Document

end SchemaTypes
