import SchemaTypes.Numeric.Double

/-! The shortest decimal that reads back as a given binary64 number, and its text: positional
from `0.00001` up to below `10 ^ 16`, with an exponent outside. -/

namespace SchemaTypes.Numeric

namespace Double

def atLeastPower (num den : Nat) (k : Int) : Bool :=
  den * pow10 k.toNat ≤ num * pow10 (-k).toNat

/-- The position of the first digit: the number lies between `10 ^ k` and `10 ^ (k + 1)`. -/
def leadingPower (x : Double) : Int :=
  let guess : Int := (x.mantissa.log2 + x.exponent) * 30103 / 100000
  if atLeastPower x.numerator x.denominator (guess + 1) then guess + 1
  else if atLeastPower x.numerator x.denominator guess then guess
  else guess - 1

/-- Whether the decimal `digits * 10 ^ exponent` rounds to `x`: it lies between the midpoints to
the neighbours, which themselves belong to even mantissas. -/
def readsAs (x : Double) (digits : Nat) (exponent : Int) : Bool :=
  let below := if x.mantissa = pow2 52 ∧ leastExponent < x.exponent then 1 else 2
  let scale := pow2 (x.exponent - 2).toNat * pow10 (-exponent).toNat
  let value := digits * pow10 exponent.toNat * pow2 (2 - x.exponent).toNat
  let low := (4 * x.mantissa - below) * scale
  let high := (4 * x.mantissa + 2) * scale
  if x.mantissa % 2 = 0 then low ≤ value && value ≤ high else low < value && value < high

/-- The best decimal with digits down to `10 ^ exponent` that reads back, if there is one. -/
def onGrid (x : Double) (exponent : Int) : Option Nat :=
  let num := x.numerator * pow10 (-exponent).toNat
  let den := x.denominator * pow10 exponent.toNat
  let nearest := roundHalfEven num den
  let other := if nearest = num / den then nearest + 1 else num / den
  if x.readsAs nearest exponent then some nearest
  else if x.readsAs other exponent then some other
  else none

/-- Tries finer and finer grids; the first that holds a decimal for `x` gives the fewest digits. -/
def firstOnGrid (x : Double) (exponent : Int) : Nat → Nat × Int
  | 0 => ((x.onGrid exponent).getD 0, exponent)
  | finer + 1 =>
    match x.onGrid exponent with
    | some digits => (digits, exponent)
    | none => x.firstOnGrid (exponent - 1) finer

def shortest (x : Double) : Nat × Int := x.firstOnGrid x.leadingPower 17

end Double

def zeros (n : Nat) : List Char := List.replicate n '0'

def significantDigits (digits : Nat) : List Char :=
  ((Nat.toDigits 10 digits).reverse.dropWhile (· == '0')).reverse

def positional (digits : List Char) (power : Int) : List Char :=
  if power < 0 then ['0', '.'] ++ zeros (-power - 1).toNat ++ digits
  else
    let whole := digits.take (power.toNat + 1)
    let fraction := digits.drop (power.toNat + 1)
    whole ++ zeros (power.toNat + 1 - digits.length) ++ ['.'] ++
      (if fraction.isEmpty then ['0'] else fraction)

def withExponent (digits : List Char) (power : Int) : List Char :=
  let fraction := if digits.length ≤ 1 then [] else '.' :: digits.drop 1
  digits.take 1 ++ fraction ++ ['e', if power < 0 then '-' else '+'] ++
    Nat.toDigits 10 power.natAbs

def Double.text (x : Double) : String :=
  let sign := if x.negative then ['-'] else []
  if x.isZero then String.ofList (sign ++ ['0', '.', '0'])
  else
    let (number, exponent) := x.shortest
    let digits := significantDigits number
    let power : Int := exponent + (Nat.toDigits 10 number).length - 1
    String.ofList (sign ++
      if -5 ≤ power ∧ power < 16 then positional digits power else withExponent digits power)

end SchemaTypes.Numeric
