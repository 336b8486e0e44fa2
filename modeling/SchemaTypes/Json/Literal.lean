import SchemaTypes.Decode.Problem
import SchemaTypes.Json.Basic

/-! Strings and numbers in JSON text. A number keeps as many of its digits as fit 64 bits, and is
then scaled by a power of ten in binary64 arithmetic. -/

namespace SchemaTypes.Json

open Numeric Decode

def digitValue (c : Char) : Nat := c.toNat - '0'.toNat

def hexValue? (c : Char) : Option Nat :=
  if c.isDigit then some (digitValue c)
  else if 'a' ≤ c ∧ c ≤ 'f' then some (c.toNat - 'a'.toNat + 10)
  else if 'A' ≤ c ∧ c ≤ 'F' then some (c.toNat - 'A'.toNat + 10)
  else none

def hexNumber? (cs : List Char) : Option Nat :=
  cs.foldl (fun n? c => n?.bind fun n => (hexValue? c).map (16 * n + ·)) (some 0)

def isHighSurrogate (n : Nat) : Bool := 0xD800 ≤ n && n ≤ 0xDBFF

def isLowSurrogate (n : Nat) : Bool := 0xDC00 ≤ n && n ≤ 0xDFFF

def surrogatePair (high low : Nat) : Char :=
  Char.ofNat (0x10000 + (high - 0xD800) * 0x400 + (low - 0xDC00))

def simpleEscape? : Char → Option Char
  | '"' => some '"'
  | '\\' => some '\\'
  | '/' => some '/'
  | 'b' => some '\x08'
  | 'f' => some '\x0c'
  | 'n' => some '\n'
  | 'r' => some '\r'
  | 't' => some '\t'
  | _ => none

def isControl (c : Char) : Bool := c.toNat < 0x20

/-- An escape that ends before four digits: the text ends inside it if fewer than four bytes are
left. -/
def shortHexEscape (rest : List Char) : Problem :=
  if (String.ofList rest).utf8ByteSize < 4 then .endInString else .invalidEscape

/-- Reads a string after its opening quote; `seen` holds its characters so far, last one first. -/
def scanString (seen : List Char) : List Char → Except Problem (List Char × List Char)
  | [] => .error .endInString
  | '"' :: rest => .ok (seen.reverse, rest)
  | '\\' :: 'u' :: a :: b :: c :: d :: rest =>
    match hexNumber? [a, b, c, d] with
    | none => .error .invalidEscape
    | some high =>
      if isLowSurrogate high then .error .loneSurrogate
      else if !isHighSurrogate high then scanString (Char.ofNat high :: seen) rest
      else
        match rest with
        | '\\' :: 'u' :: e :: f :: g :: h :: rest =>
          match hexNumber? [e, f, g, h] with
          | none => .error .invalidEscape
          | some low =>
            if isLowSurrogate low then scanString (surrogatePair high low :: seen) rest
            else .error .loneSurrogate
        | '\\' :: 'u' :: rest => .error (shortHexEscape rest)
        | [] => .error .endInString
        | ['\\'] => .error .endInString
        | _ => .error .unfinishedHexEscape
  | '\\' :: 'u' :: rest => .error (shortHexEscape rest)
  | ['\\'] => .error .endInString
  | '\\' :: c :: rest =>
    match simpleEscape? c with
    | some e => scanString (e :: seen) rest
    | none => .error .invalidEscape
  | c :: rest => if isControl c then .error .controlCharacter else scanString (c :: seen) rest

/-- Passes over a string after its opening quote without looking at surrogates. -/
def skipString : List Char → Except Problem (List Char)
  | [] => .error .endInString
  | '"' :: rest => .ok rest
  | '\\' :: 'u' :: a :: b :: c :: d :: rest =>
    if (hexNumber? [a, b, c, d]).isSome then skipString rest else .error .invalidEscape
  | '\\' :: 'u' :: rest => .error (shortHexEscape rest)
  | ['\\'] => .error .endInString
  | '\\' :: c :: rest => if (simpleEscape? c).isSome then skipString rest else .error .invalidEscape
  | c :: rest => if isControl c then .error .controlCharacter else skipString rest

structure NumberLiteral where
  negative : Bool
  whole : List Char
  fraction : Option (List Char)
  exponent : Option (Bool × List Char)

def scanExponent (atEnd : Problem) :
    List Char → Except Problem (Option (Bool × List Char) × List Char)
  | c :: rest =>
    if c = 'e' ∨ c = 'E' then
      let (negative, rest) :=
        match rest with
        | '+' :: rest => (false, rest)
        | '-' :: rest => (true, rest)
        | rest => (false, rest)
      match rest with
      | [] => .error atEnd
      | d :: _ =>
        if d.isDigit then
          .ok (some (negative, rest.takeWhile Char.isDigit), rest.dropWhile Char.isDigit)
        else .error .invalidNumber
    else .ok (none, c :: rest)
  | [] => .ok (none, [])

def scanFraction (atEnd : Problem) :
    List Char → Except Problem (Option (List Char) × List Char)
  | '.' :: rest =>
    match rest with
    | [] => .error atEnd
    | d :: _ =>
      if d.isDigit then .ok (some (rest.takeWhile Char.isDigit), rest.dropWhile Char.isDigit)
      else .error .invalidNumber
  | rest => .ok (none, rest)

def scanWhole (atEnd : Problem) : List Char → Except Problem (List Char × List Char)
  | [] => .error atEnd
  | '0' :: d :: rest => if d.isDigit then .error .invalidNumber else .ok (['0'], d :: rest)
  | ['0'] => .ok (['0'], [])
  | d :: rest =>
    if d.isDigit then
      .ok (d :: rest.takeWhile Char.isDigit, rest.dropWhile Char.isDigit)
    else .error .invalidNumber

/-- Reads a number; `atEnd` is the problem of a text that ends inside it. -/
def scanNumber (atEnd : Problem) (cs : List Char) :
    Except Problem (NumberLiteral × List Char) := do
  let (negative, rest) :=
    match cs with
    | '-' :: rest => (true, rest)
    | rest => (false, rest)
  let (whole, rest) ← scanWhole atEnd rest
  let (fraction, rest) ← scanFraction atEnd rest
  let (exponent, rest) ← scanExponent atEnd rest
  return (⟨negative, whole, fraction, exponent⟩, rest)

def wordLimit : Nat := pow2 64

def decimalValue (digits : List Char) : Nat :=
  digits.foldl (fun n d => 10 * n + digitValue d) 0

/-- Takes digits as long as the number fits 64 bits; returns it and the digits left over. -/
def takeSignificand (n : Nat) : List Char → Nat × List Char
  | [] => (n, [])
  | d :: rest =>
    if wordLimit ≤ 10 * n + digitValue d then (n, d :: rest)
    else takeSignificand (10 * n + digitValue d) rest

def powerOfTen (n : Nat) : Option Double := Double.ofNat (pow10 n)

/-- The number `significand * 10 ^ exponent`, rounded at each step: the significand, the power, and
their product or quotient. Beyond `10 ^ 308` a quotient is taken twice. -/
def scaled (significand : Nat) (exponent : Int) : Option Double := do
  let x ← Double.ofNat significand
  if x.isZero then return x
  else if 308 < exponent then none
  else if 0 ≤ exponent then x.mul (← powerOfTen exponent.toNat)
  else if -308 ≤ exponent then x.div (← powerOfTen (-exponent).toNat)
  else if -616 ≤ exponent then
    (← x.div (← powerOfTen 308)).div (← powerOfTen (-exponent - 308).toNat)
  else return Double.zero false

namespace NumberLiteral

def exponentLimit : Nat := pow2 31

def float (negative : Bool) (x : Option Double) : Except Problem Json :=
  match x with
  | some x => .ok (Json.float (x.withSign negative))
  | none => .error .numberOutOfRange

def integer (negative : Bool) (n : Nat) : Except Problem Json :=
  if !negative then .ok (Json.int n)
  else if n = 0 ∨ pow2 63 < n then float negative (Double.ofNat n)
  else .ok (Json.int (-n))

def value (l : NumberLiteral) : Except Problem Json :=
  let (whole, dropped) := takeSignificand 0 l.whole
  match l.fraction, l.exponent with
  | none, none =>
    if dropped.isEmpty then integer l.negative whole
    else float l.negative (scaled whole dropped.length)
  | fraction, exponent =>
    let digits := fraction.getD []
    let (significand, ignored) := takeSignificand whole digits
    let start : Int := dropped.length - (digits.length - ignored.length)
    match exponent with
    | none => float l.negative (scaled significand start)
    | some (below, power) =>
      if exponentLimit ≤ decimalValue power then
        if significand ≠ 0 ∧ !below then .error .numberOutOfRange
        else float l.negative (some (Double.zero false))
      else
        let power : Int := decimalValue power
        float l.negative (scaled significand (if below then start - power else start + power))

end NumberLiteral

end SchemaTypes.Json
