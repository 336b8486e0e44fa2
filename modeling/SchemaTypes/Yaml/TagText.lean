import SchemaTypes.Json.Literal
import SchemaTypes.Yaml.Cursor
import SchemaTypes.Yaml.Tag

/-! Tags as they are written: between angle brackets, after a handle that a directive may explain,
or after a single exclamation mark. -/

namespace SchemaTypes.Yaml

/-- Reads a tag handle: an exclamation mark, and a name if a second mark ends it. -/
def readHandle (c : Cursor) : Option (List Char × Cursor) :=
  if c.peek == some '!' then
    let c := c.skip 1
    let name := c.rest.takeWhile isNameChar
    let c := c.skip name.length
    if c.peek == some '!' then some ('!' :: name ++ ['!'], c.skip 1) else some ('!' :: name, c)
  else none

def isTagChar (isVerbatim : Bool) (c : Char) : Bool :=
  isNameChar c || ";/?:@&=+$.!~*'()".toList.contains c ||
    (isVerbatim && (c == ',' || c == '[' || c == ']'))

def furtherBytes? (b : UInt8) : Option Nat :=
  if b &&& 0x80 == 0 then some 0
  else if b &&& 0xE0 == 0xC0 then some 1
  else if b &&& 0xF0 == 0xE0 then some 2
  else if b &&& 0xF8 == 0xF0 then some 3
  else none

/-- Reads a byte that is written as a percent sign and two digits. -/
def readByte (c : Cursor) : Option (UInt8 × Cursor) :=
  match c.rest with
  | '%' :: a :: b :: _ => (Json.hexNumber? [a, b]).map fun n => (n.toUInt8, c.skip 3)
  | _ => none

def readFurtherBytes : Nat → Cursor → Option (List UInt8 × Cursor)
  | 0, c => some ([], c)
  | more + 1, c => do
    let (b, c) ← readByte c
    if b &&& 0xC0 != 0x80 then none
    else
      let (bytes, c) ← readFurtherBytes more c
      return (b :: bytes, c)

/-- Reads the bytes of an escaped character. They need not make a character that exists. -/
def readTagEscape (c : Cursor) : Option (List UInt8 × Cursor) := do
  let (b, c) ← readByte c
  let (bytes, c) ← readFurtherBytes (← furtherBytes? b) c
  return (b :: bytes, c)

/-- Reads the bytes of a tag; `out` holds those before, last byte first. -/
def readTagBytes (isVerbatim : Bool) : Nat → List UInt8 → Cursor → Option (List UInt8 × Cursor)
  | 0, _, _ => none
  | bound + 1, out, c =>
    match c.peek with
    | some '%' => do
      let (bytes, c) ← readTagEscape c
      readTagBytes isVerbatim bound (bytes.reverse ++ out) c
    | some ch =>
      if isTagChar isVerbatim ch then
        readTagBytes isVerbatim bound ((String.utf8EncodeChar ch).reverse ++ out) (c.skip 1)
      else some (out.reverse, c)
    | none => some (out.reverse, c)

/-- Reads a tag that has at least one byte, be it a zero. -/
def readTagPart (isVerbatim : Bool) (c : Cursor) : Option (Tag × Cursor) := do
  let (bytes, c) ← readTagBytes isVerbatim c.bound [] c
  if bytes.isEmpty then none else return (.ofBytes bytes, c)

def readVerbatimTag (c : Cursor) : Option (Tag × Cursor) := do
  let (tag, c) ← readTagPart true (c.skip 2)
  if c.peek == some '>' then return (tag, c.skip 1) else none

/-- Reads a tag with a handle, or one that starts with a single mark. A mark with nothing after it
has no handle that a directive could explain. -/
def readShortTag (c : Cursor) : Option (String × Tag × Cursor) := do
  let (handle, c) ← readHandle c
  if 1 < handle.length && handle.getLast? == some '!' then
    let (suffix, c) ← readTagPart false c
    return (String.ofList handle, suffix, c)
  else
    let start := (handle.drop 1).flatMap String.utf8EncodeChar
    let (bytes, c) ← readTagBytes false c.bound start.reverse c
    let suffix := Tag.ofBytes bytes
    if suffix.isEmpty then return ("", .mark, c) else return ("!", suffix, c)

/-- Reads a tag as a handle and what follows it; the handle is empty if the tag is complete. -/
def readTag (c : Cursor) : Option (String × Tag × Cursor) :=
  if c.peekAt 1 == some '<' then (readVerbatimTag c).map fun (tag, c) => ("", tag, c)
  else readShortTag c

/-- Reads a handle and the beginning of the tags that it stands for. -/
def readTagExpansion (c : Cursor) : Option (String × Tag × Cursor) := do
  let (handle, c) ← readHandle (c.skipWhile isSpacing)
  if handle.getLast? != some '!' || !c.startsWith isSpacing then none
  else
    let (expansion, c) ← readTagPart true (c.skipWhile isSpacing)
    if c.isGap then return (String.ofList handle, expansion, c) else none

end SchemaTypes.Yaml
