import SchemaTypes.Text.Blank
import SchemaTypes.Text.Identifier
import SchemaTypes.TypeScript.TypeExpr

/-! Declarations of types and the text of a file of them. A description is one comment line, and
a comment end inside it is broken up. -/

namespace SchemaTypes

open Text

/-- The type of a field. A discriminator has the literals of its values. -/
inductive FieldType where
  | expr (e : TypeExpr)
  | literals (values : List String)

structure Field where
  key : String
  isOptional : Bool
  type : FieldType
  description : Option String := none

inductive Shape where
  /-- The types that it extends, its fields, and whether it has an index signature. -/
  | interface (parents : List String) (fields : List Field) (indexed : Bool)
  | union (variants : List TypeExpr)
  | enumeration (values : List Json)
  | synonym (target : TypeExpr)

structure Declaration where
  name : String
  description : Option String
  shape : Shape

def joinChars (separator : List Char) : List (List Char) → List Char
  | [] => []
  | [cs] => cs
  | cs :: rest => cs ++ separator ++ joinChars separator rest

def bar : List Char := [' ', '|', ' ']

def FieldType.chars : FieldType → List Char
  | expr e => e.chars
  | literals values => joinChars bar (values.map fun value => jsonLiteral value.toList)

/-- A key as it is written in an interface: quoted unless it is an identifier. -/
def fieldName (key : String) : List Char :=
  if isIdentifier key then key.toList else jsonLiteral key.toList

/-- Breaks up every comment end. -/
def breakCommentEnds : List Char → List Char
  | '*' :: '/' :: rest => '*' :: '\\' :: '/' :: breakCommentEnds rest
  | c :: rest => c :: breakCommentEnds rest
  | [] => []

def commentLine (indent : List Char) : Option String → List Char
  | none => []
  | some description =>
    indent ++ "/** ".toList ++ breakCommentEnds description.toList ++ " */\n".toList

def Field.lines (field : Field) : List Char :=
  commentLine [' ', ' '] field.description ++
    [' ', ' '] ++ fieldName field.key ++ (if field.isOptional then ['?'] else []) ++
    [':', ' '] ++ field.type.chars ++ [';', '\n']

def extendsClause : List String → List Char
  | [] => []
  | names => " extends ".toList ++ joinChars [',', ' '] (names.map String.toList)

def typeLine (keyword : List Char) (name : String) (target : List Char) : List Char :=
  keyword ++ "type ".toList ++ name.toList ++ " = ".toList ++ target ++ [';', '\n']

/-- The lines of a declaration; `keyword` is what exports it. -/
def Declaration.lines (keyword : List Char) (d : Declaration) : List Char :=
  let body :=
    match d.shape with
    | .interface parents fields indexed =>
      keyword ++ "interface ".toList ++ d.name.toList ++ extendsClause parents ++
        [' ', '{', '\n'] ++ fields.flatMap Field.lines ++
        (if indexed then "  [key: string]: any;\n".toList else []) ++ ['}', '\n']
    | .union variants => typeLine keyword d.name (joinChars bar (variants.map TypeExpr.chars))
    | .enumeration values => typeLine keyword d.name (joinChars bar (values.map Json.compactText))
    | .synonym target => typeLine keyword d.name target.chars
  '\n' :: commentLine [] d.description ++ body

def fileHeader : String := "// Generated by jstr. Do not edit.\n"

def exportKeyword (exported : Bool) : List Char := if exported then "export ".toList else []

def fileText (exported : Bool) (declarations : List Declaration) : String :=
  String.ofList
    (fileHeader.toList ++ declarations.flatMap (Declaration.lines (exportKeyword exported)))

end SchemaTypes
