import SchemaTypes.Settings

/-! Type expressions and their text. A union is flat: none of its members is a union. -/

namespace SchemaTypes

inductive TypeExpr where
  | ident (name : String)
  | array (element : TypeExpr)
  | tuple (members : List TypeExpr)
  | dictionary (key value : TypeExpr)
  | union (members : List TypeExpr)

namespace TypeExpr

mutual

def decEq : (e f : TypeExpr) → Decidable (e = f)
  | ident a, ident b => decidable_of_iff (a = b) (by simp)
  | array a, array b =>
    have := decEq a b
    decidable_of_iff (a = b) (by simp)
  | tuple as, tuple bs =>
    have := decEqList as bs
    decidable_of_iff (as = bs) (by simp)
  | dictionary a b, dictionary c d =>
    have := decEq a c
    have := decEq b d
    decidable_of_iff (a = c ∧ b = d) (by simp)
  | union as, union bs =>
    have := decEqList as bs
    decidable_of_iff (as = bs) (by simp)
  | ident _, array _ | ident _, tuple _ | ident _, dictionary _ _ | ident _, union _
  | array _, ident _ | array _, tuple _ | array _, dictionary _ _ | array _, union _
  | tuple _, ident _ | tuple _, array _ | tuple _, dictionary _ _ | tuple _, union _
  | dictionary _ _, ident _ | dictionary _ _, array _ | dictionary _ _, tuple _
  | dictionary _ _, union _ | union _, ident _ | union _, array _ | union _, tuple _
  | union _, dictionary _ _ => isFalse (by simp)

def decEqList : (es fs : List TypeExpr) → Decidable (es = fs)
  | [], [] => isTrue rfl
  | [], _ :: _ => isFalse (by simp)
  | _ :: _, [] => isFalse (by simp)
  | e :: es, f :: fs =>
    have := decEq e f
    have := decEqList es fs
    decidable_of_iff (e = f ∧ es = fs) (by simp)

end

instance : DecidableEq TypeExpr := decEq

def any : TypeExpr := ident "any"

def number : TypeExpr := ident "number"

def boolean : TypeExpr := ident "boolean"

def string : TypeExpr := ident "string"

def null : TypeExpr := ident "null"

def never : TypeExpr := ident "never"

def nullKeyword (keyword : NullKeyword) : TypeExpr := ident keyword.name

/-- The members of a union; any other expression is its only member. -/
def unionMembers : TypeExpr → List TypeExpr
  | union members => members
  | e => [e]

/-- The union of expressions, which is the expression itself if there is only one. -/
def join (es : List TypeExpr) : TypeExpr :=
  match es.flatMap unionMembers with
  | [e] => e
  | members => union members

mutual

def hasUnion : TypeExpr → Bool
  | ident _ => false
  | array element => hasUnion element
  | tuple members => anyUnion members
  | dictionary key value => hasUnion key || hasUnion value
  | union _ => true

def anyUnion : List TypeExpr → Bool
  | [] => false
  | e :: rest => hasUnion e || anyUnion rest

end

/-- Keys that an index signature can have; others are spelled as a mapped type. -/
def isIndexKey (key : TypeExpr) : Bool := key == string || key == number

mutual

def chars : TypeExpr → List Char
  | ident name => name.toList
  | array element =>
    if hasUnion element then '(' :: chars element ++ [')', '[', ']']
    else chars element ++ ['[', ']']
  | tuple members => '[' :: charsBetween [',', ' '] members ++ [']']
  | dictionary key value =>
    let colon := if isIndexKey key then "[key: " else "[key in "
    let close := if isIndexKey key then "]: " else "]?: "
    '{' :: ' ' :: colon.toList ++ chars key ++ close.toList ++ chars value ++ [';', ' ', '}']
  | union members => charsBetween [' ', '|', ' '] members

def charsBetween (separator : List Char) : List TypeExpr → List Char
  | [] => []
  | [e] => chars e
  | e :: rest => chars e ++ separator ++ charsBetween separator rest

end

def text (e : TypeExpr) : String := String.ofList e.chars

end TypeExpr

end SchemaTypes
