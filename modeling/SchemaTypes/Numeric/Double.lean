/-! Binary64 numbers by exact arithmetic on natural numbers. Rounding goes to the nearest number,
and from halfway to the one with an even mantissa. -/

namespace SchemaTypes.Numeric

def pow2 (n : Nat) : Nat := Nat.pow 2 n

def pow10 (n : Nat) : Nat := Nat.pow 10 n

def roundHalfEven (num den : Nat) : Nat :=
  let quotient := num / den
  let rest := num % den
  if 2 * rest < den then quotient
  else if den < 2 * rest then quotient + 1
  else quotient + quotient % 2

/-- The finite number `mantissa * 2 ^ exponent` with a sign. The mantissa has 53 bits, fewer only
at the least exponent -1074. -/
structure Double where
  negative : Bool
  mantissa : Nat
  exponent : Int
  deriving DecidableEq

namespace Double

def leastExponent : Int := -1074

def greatestExponent : Int := 971

def zero (negative : Bool) : Double := ⟨negative, 0, leastExponent⟩

def isZero (x : Double) : Bool := x.mantissa == 0

def magnitude (x : Double) : Double := { x with negative := false }

def withSign (x : Double) (negative : Bool) : Double := { x with negative }

def numerator (x : Double) : Nat := x.mantissa * pow2 x.exponent.toNat

def denominator (x : Double) : Nat := pow2 (-x.exponent).toNat

/-- The power of two that leaves 53 bits before the point of `num / den`. -/
def exponentFor (num den : Nat) : Int :=
  let gap : Int := (num.log2 : Int) - den.log2
  let e := if num * pow2 (-gap).toNat < den * pow2 gap.toNat then gap - 53 else gap - 52
  max leastExponent e

/-- The number nearest to `num / den`, or `none` if that is beyond the greatest number. -/
def ofRatio (num den : Nat) : Option Double :=
  if num = 0 then some (zero false)
  else
    let e := exponentFor num den
    let m := roundHalfEven (num * pow2 (-e).toNat) (den * pow2 e.toNat)
    let x : Double := if m = pow2 53 then ⟨false, pow2 52, e + 1⟩ else ⟨false, m, e⟩
    if x.exponent ≤ greatestExponent then some x else none

def ofNat (n : Nat) : Option Double := ofRatio n 1

def mul (x y : Double) : Option Double :=
  (ofRatio (x.numerator * y.numerator) (x.denominator * y.denominator)).map
    (·.withSign (x.negative != y.negative))

def div (x y : Double) : Option Double :=
  (ofRatio (x.numerator * y.denominator) (x.denominator * y.numerator)).map
    (·.withSign (x.negative != y.negative))

def ofDecimal (digits : Nat) (exponent : Int) : Option Double :=
  let size : Int := (Nat.toDigits 10 digits).length
  if digits = 0 then some (zero false)
  else if size + exponent < -400 then some (zero false)
  else if 400 < size + exponent then none
  else ofRatio (digits * pow10 exponent.toNat) (pow10 (-exponent).toNat)

end Double

end SchemaTypes.Numeric
