import SchemaTypes.Decode.Raw
import SchemaTypes.Json.Literal

/-! The values that plain scalars stand for. A number with a superfluous zero in front is a text,
and so is everything that is not null, a truth value or a number. -/

namespace SchemaTypes.Yaml

open Numeric Decode

def isNullText (s : List Char) : Bool :=
  ["null", "Null", "NULL", "~"].contains (String.ofList s)

def boolOfText? (s : List Char) : Option Bool :=
  let s := String.ofList s
  if ["true", "True", "TRUE"].contains s then some true
  else if ["false", "False", "FALSE"].contains s then some false
  else none

def digitIn? (base : Nat) (c : Char) : Option Nat :=
  (Json.hexValue? c).bind fun d => if d < base then some d else none

def naturalIn? (base : Nat) (s : List Char) : Option Nat :=
  if s.isEmpty then none
  else s.foldl (fun n? c => n?.bind fun n => (digitIn? base c).map (base * n + ·)) (some 0)

def dropSign : List Char → List Char
  | '+' :: rest => rest
  | '-' :: rest => rest
  | s => s

def hasLeadingZero (s : List Char) : Bool :=
  match dropSign s with
  | '0' :: rest => !rest.isEmpty && rest.all Char.isDigit
  | _ => false

/-- A natural number after its sign, in one of four bases. -/
def magnitude? (s : List Char) : Option Nat :=
  match s with
  | '0' :: 'x' :: rest => naturalIn? 16 rest
  | '0' :: 'o' :: rest => naturalIn? 8 rest
  | '0' :: 'b' :: rest => naturalIn? 2 rest
  | s => if hasLeadingZero s then none else naturalIn? 10 s

def int? : List Char → Option Int
  | '-' :: rest => (magnitude? rest).map fun n => -n
  | '+' :: rest => (magnitude? rest).map Int.ofNat
  | s => (magnitude? s).map Int.ofNat

/-- Digits with at most one point among them: their number, and how many follow the point. -/
def pointed? (s : List Char) : Option (Nat × Nat) :=
  let whole := s.takeWhile Char.isDigit
  let digits? :=
    match s.dropWhile Char.isDigit with
    | [] => some (whole, [])
    | '.' :: fraction => if fraction.all Char.isDigit then some (whole, fraction) else none
    | _ => none
  digits?.bind fun (whole, fraction) =>
    if whole.isEmpty && fraction.isEmpty then none
    else some (Json.decimalValue (whole ++ fraction), fraction.length)

def exponent? (s : List Char) : Option Int :=
  let n? := naturalIn? 10 (dropSign s)
  match s with
  | '-' :: _ => n?.map fun n => -n
  | _ => n?.map Int.ofNat

def isExponentMark (c : Char) : Bool := c == 'e' || c == 'E'

def unsignedFloat? (s : List Char) : Option Double := do
  let (digits, places) ← pointed? (s.takeWhile (!isExponentMark ·))
  let exponent ←
    match s.dropWhile (!isExponentMark ·) with
    | [] => some 0
    | _ :: power => exponent? power
  Double.ofDecimal digits (exponent - places)

def isInfinity (s : List Char) : Bool := [".inf", ".Inf", ".INF"].contains (String.ofList s)

def isNotANumber (s : List Char) : Bool := [".nan", ".NaN", ".NAN"].contains (String.ofList s)

def float? (s : List Char) : Option Raw :=
  if isInfinity (dropSign s) || isNotANumber s then some .nonfinite
  else
    match s with
    | '-' :: rest => (unsignedFloat? rest).map fun x => .float (x.withSign true)
    | '+' :: rest => (unsignedFloat? rest).map .float
    | s => (unsignedFloat? s).map .float

/-- Whole numbers that are representable, and the wider range outside of which they are floats. -/
def ofInt (n : Int) (s : List Char) : Option Raw :=
  if -pow2 63 ≤ n ∧ n < pow2 64 then some (.int n)
  else if -pow2 127 ≤ n ∧ n < pow2 128 then none
  else some ((float? s).getD (.text (String.ofList s)))

/-- The value of a plain scalar; a whole number that is somewhat too great has none. -/
def plainValue? (s : List Char) : Option Raw :=
  if s.isEmpty || isNullText s then some .null
  else
    match boolOfText? s, int? s with
    | some b, _ => some (.bool b)
    | none, some n => ofInt n s
    | none, none =>
      if hasLeadingZero s then some (.text (String.ofList s))
      else some ((float? s).getD (.text (String.ofList s)))

/-- Whether a plain scalar is the text that it shows. -/
def isPlainText (s : List Char) : Bool :=
  match plainValue? s with
  | some (.text _) => true
  | _ => false

end SchemaTypes.Yaml
