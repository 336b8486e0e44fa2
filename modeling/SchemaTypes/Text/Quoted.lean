import SchemaTypes.Text.Visible

/-! Texts between double quotes, in the two forms that outputs use: `jsonQuoted` escapes only
what a JSON string must, `messageQuoted` also everything a reader could not see. -/

namespace SchemaTypes.Text

def hexDigit (n : Nat) : Char := "0123456789abcdef".toList.getD n '0'

def jsonEscape (c : Char) : List Char :=
  match c with
  | '"' => ['\\', '"']
  | '\\' => ['\\', '\\']
  | '\x08' => ['\\', 'b']
  | '\x0c' => ['\\', 'f']
  | '\n' => ['\\', 'n']
  | '\r' => ['\\', 'r']
  | '\t' => ['\\', 't']
  | c =>
    if c.toNat < 0x20 then
      ['\\', 'u', '0', '0', hexDigit (c.toNat / 16), hexDigit (c.toNat % 16)]
    else [c]

def jsonLiteral (cs : List Char) : List Char := '"' :: cs.flatMap jsonEscape ++ ['"']

def jsonQuoted (s : String) : String := String.ofList (jsonLiteral s.toList)

def messageEscape (c : Char) : List Char :=
  match c with
  | '\x00' => ['\\', '0']
  | '\t' => ['\\', 't']
  | '\r' => ['\\', 'r']
  | '\n' => ['\\', 'n']
  | '\\' => ['\\', '\\']
  | '"' => ['\\', '"']
  | c =>
    if isVisible c && !isExtending c then [c]
    else ['\\', 'u', '{'] ++ Nat.toDigits 16 c.toNat ++ ['}']

def messageQuoted (s : String) : String :=
  String.ofList ('"' :: s.toList.flatMap messageEscape ++ ['"'])

end SchemaTypes.Text
