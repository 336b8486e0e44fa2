import SchemaTypes.Yaml.BlockText
import SchemaTypes.Yaml.FlowText
import SchemaTypes.Yaml.TagText
import SchemaTypes.Yaml.Token

/-! The tokens of a text. The columns at which block collections start become tokens of their own.
Where a key may stand its place is remembered, since only the colon after it shows that it is
one. -/

namespace SchemaTypes.Yaml

/-- A place where the next token would be a key if a colon follows on the same line. -/
structure KeyPlace where
  /-- A key must be there, since the line could be nothing else. -/
  isRequired : Bool
  position : Nat
  offset : Nat
  line : Nat
  column : Nat

structure Lexer where
  cursor : Cursor
  tokens : Array Token := #[]
  /-- The column of the innermost block collection, or -1. -/
  indent : Int := -1
  outerIndents : List Int := []
  /-- For each open flow collection, and outside of all of them, where a key may stand. -/
  keyPlaces : List (Option KeyPlace) := [none]
  flowDepth : Nat := 0
  keyAllowed : Bool := true

namespace Lexer

def inFlow (l : Lexer) : Bool := l.flowDepth != 0

def push (token : Token) (l : Lexer) : Lexer := { l with tokens := l.tokens.push token }

def insert (position : Nat) (token : Token) (l : Lexer) : Lexer :=
  { l with tokens := l.tokens.insertIdxIfInBounds position token }

def allowKey (allowed : Bool) (l : Lexer) : Lexer := { l with keyAllowed := allowed }

def moveTo (cursor : Cursor) (l : Lexer) : Lexer := { l with cursor }

def accept (width : Nat) (token : Token) (l : Lexer) : Lexer :=
  (l.moveTo (l.cursor.skip width)).push token

/-- The keys that may stand at this level of flow collections. -/
def keyPlace (l : Lexer) : Option KeyPlace := l.keyPlaces.head?.join

def setKeyPlace (place : Option KeyPlace) (l : Lexer) : Lexer :=
  { l with keyPlaces := place :: l.keyPlaces.drop 1 }

def dropKey (l : Lexer) : Option Lexer :=
  match l.keyPlace with
  | some place => if place.isRequired then none else some (l.setKeyPlace none)
  | none => some l

def markKey (l : Lexer) : Option Lexer :=
  if l.keyAllowed then do
    let c := l.cursor
    let place : KeyPlace :=
      ⟨!l.inFlow && l.indent == c.column, l.tokens.size, c.offset, c.line, c.column⟩
    return (← l.dropKey).setKeyPlace (some place)
  else some l

/-- A key ends on its line and within 1024 bytes. -/
def isStale (c : Cursor) (place : KeyPlace) : Bool :=
  place.line < c.line || place.offset + 1024 < c.offset

/-- Gives up the places from which no key can reach the cursor. -/
def dropStaleKeys (l : Lexer) : Option Lexer := do
  let keyPlaces ← l.keyPlaces.mapM fun
    | some place =>
      if isStale l.cursor place then if place.isRequired then none else some none
      else some (some place)
    | none => some none
  return { l with keyPlaces }

/-- Starts a block collection at a column that is deeper than the innermost one. -/
def roll (column : Nat) (position : Nat) (token : Token) (l : Lexer) : Lexer :=
  if !l.inFlow && l.indent < column then
    { l.insert position token with
      indent := column
      outerIndents := l.indent :: l.outerIndents }
  else l

/-- Ends the block collections that are deeper than a column. -/
def unrollAll (column : Int) (indent : Int) : List Int → Lexer → Lexer
  | [], l => { l with indent, outerIndents := [] }
  | outer :: more, l =>
    if column < indent then unrollAll column outer more (l.push .blockEnd)
    else { l with indent, outerIndents := outer :: more }

def unroll (column : Int) (l : Lexer) : Lexer :=
  if l.inFlow then l else unrollAll column l.indent l.outerIndents l

/-- Moves to the next token, over white space, comments and line ends. Tabs count as white space
only where no key may stand, and a byte order mark at the beginning of a line. -/
def findToken : Nat → Lexer → Lexer
  | 0, l => l
  | bound + 1, l =>
    let c := l.cursor
    let c := if c.column == 0 && c.peek == some '\ufeff' then c.skip 1 else c
    let tabs := l.inFlow || !l.keyAllowed
    let c := (c.skipWhile fun ch => ch == ' ' || (tabs && ch == '\t')).skipComment
    if c.startsWith isBreak then
      findToken bound ((l.moveTo c.skipBreak).allowKey (l.keyAllowed || !l.inFlow))
    else l.moveTo c

def readName (c : Cursor) : String × Cursor :=
  let name := c.rest.takeWhile isNameChar
  (String.ofList name, c.skip name.length)

def endsAnchor (c : Cursor) : Bool :=
  c.isGap || c.startsWith fun ch => "?:,]\x7d%@`".toList.contains ch

def anchor (token : String → Token) (l : Lexer) : Option Lexer := do
  let l := (← l.markKey).allowKey false
  let (name, c) := readName (l.cursor.skip 1)
  if name.isEmpty || !endsAnchor c then none else return (l.moveTo c).push (token name)

def tag (l : Lexer) : Option Lexer := do
  let l := (← l.markKey).allowKey false
  let (handle, suffix, c) ← readTag l.cursor
  if c.isGap || (l.inFlow && c.peek == some ',') then
    return (l.moveTo c).push (.tag handle suffix)
  else none

def readVersionNumber (c : Cursor) : Option (Nat × Cursor) :=
  let digits := c.rest.takeWhile Char.isDigit
  if digits.isEmpty || 9 < digits.length then none
  else some (Json.decimalValue digits, c.skip digits.length)

def readVersion (c : Cursor) : Option (Token × Cursor) := do
  let (major, c) ← readVersionNumber (c.skipWhile isSpacing)
  if c.peek != some '.' then none
  else
    let (minor, c) ← readVersionNumber (c.skip 1)
    return (.version major minor, c)

def readTagDirective (c : Cursor) : Option (Token × Cursor) :=
  (readTagExpansion c).map fun (handle, expansion, c) => (.tagDirective handle expansion, c)

def readDirective (c : Cursor) : Option (Token × Cursor) := do
  let (name, c) := readName (c.skip 1)
  if !c.isGap then none
  else if name == "YAML" then readVersion c
  else if name == "TAG" then readTagDirective c
  else none

/-- Ends all block collections, as the end of a document does. -/
def endBlocks (l : Lexer) : Option Lexer := do
  return (← (l.unroll (-1)).dropKey).allowKey false

def directive (l : Lexer) : Option Lexer := do
  let l ← l.endBlocks
  let (token, c) ← readDirective l.cursor
  return (l.moveTo (← c.finishLine)).push token

def documentMarker (token : Token) (l : Lexer) : Option Lexer := do
  return (← l.endBlocks).accept 3 token

def openFlow (token : Token) (l : Lexer) : Option Lexer := do
  let l := (← l.markKey).accept 1 token
  return { l with
    keyPlaces := none :: l.keyPlaces
    flowDepth := l.flowDepth + 1
    keyAllowed := true }

def closeFlow (token : Token) (l : Lexer) : Option Lexer := do
  let l := ((← l.dropKey).accept 1 token).allowKey false
  if l.inFlow then
    return { l with keyPlaces := l.keyPlaces.drop 1, flowDepth := l.flowDepth - 1 }
  else return l

def flowEntry (l : Lexer) : Option Lexer := do
  return ((← l.dropKey).allowKey true).accept 1 .flowEntry

/-- Starts a block collection here if one may start. -/
def rollHere (token : Token) (l : Lexer) : Option Lexer :=
  if l.inFlow then some l
  else if !l.keyAllowed then none
  else some (l.roll l.cursor.column l.tokens.size token)

def blockEntry (l : Lexer) : Option Lexer := do
  let l ← (← l.rollHere .blockSequenceStart).dropKey
  return (l.allowKey true).accept 1 .blockEntry

def explicitKey (l : Lexer) : Option Lexer := do
  let l ← (← l.rollHere .blockMappingStart).dropKey
  return (l.allowKey (!l.inFlow)).accept 1 .key

/-- A colon makes a key of what stands at the remembered place. -/
def value (l : Lexer) : Option Lexer :=
  match l.keyPlace with
  | some place =>
    let l := l.insert place.position .key
    let l := l.roll place.column place.position .blockMappingStart
    some (((l.setKeyPlace none).allowKey false).accept 1 .value)
  | none => do
    let l ← l.rollHere .blockMappingStart
    return (l.allowKey (!l.inFlow)).accept 1 .value

def blockScalar (isFolded : Bool) (l : Lexer) : Option Lexer := do
  let l := (← l.dropKey).allowKey true
  let (text, c) ← readBlock isFolded l.indent (l.cursor.skip 1)
  return (l.moveTo c).push
    (.scalar (if isFolded then .folded else .literal) (String.ofList text))

def quotedScalar (quote : Char) (style : Style) (l : Lexer) : Option Lexer := do
  let l := (← l.markKey).allowKey false
  let c := l.cursor.skip 1
  let (text, c) ← readQuoted quote c.bound [] {} c
  return (l.moveTo c).push (.scalar style (String.ofList text))

def plainScalar (l : Lexer) : Option Lexer := do
  let l := (← l.markKey).allowKey false
  let c := l.cursor
  let (text, overLines, c) ← readPlain l.inFlow (l.indent + 1).toNat c.bound [] {} c
  return ((l.moveTo c).allowKey overLines).push (.scalar .plain (String.ofList text))

/-- Whether a plain scalar can start at the cursor with the given character. -/
def startsPlain (l : Lexer) (ch : Char) : Bool :=
  let c := l.cursor
  if ch == '-' then !((c.peekAt 1).map isSpacing).getD false
  else if ch == '?' || ch == ':' then !l.inFlow && !c.isGapAt 1
  else !("-?:,[]\x7b\x7d#&*!|>'\"%@`".toList.contains ch) && !c.isGap

def tokenAt (ch : Char) (l : Lexer) : Option Lexer :=
  let c := l.cursor
  let isApart := c.isGapAt 1
  if c.column == 0 && ch == '%' then l.directive
  else if c.isMarker '-' then l.documentMarker .documentStart
  else if c.isMarker '.' then l.documentMarker .documentEnd
  else if ch == '[' then l.openFlow .flowSequenceStart
  else if ch == '{' then l.openFlow .flowMappingStart
  else if ch == ']' then l.closeFlow .flowSequenceEnd
  else if ch == '}' then l.closeFlow .flowMappingEnd
  else if ch == ',' then l.flowEntry
  else if ch == '-' && isApart then l.blockEntry
  else if ch == '?' && (l.inFlow || isApart) then l.explicitKey
  else if ch == ':' && (l.inFlow || isApart) then l.value
  else if ch == '*' then l.anchor .aliasOf
  else if ch == '&' then l.anchor .anchor
  else if ch == '!' then l.tag
  else if ch == '|' && !l.inFlow then l.blockScalar false
  else if ch == '>' && !l.inFlow then l.blockScalar true
  else if ch == '\'' then l.quotedScalar ch .singleQuoted
  else if ch == '"' then l.quotedScalar ch .doubleQuoted
  else if l.startsPlain ch then l.plainScalar
  else none

def finish (l : Lexer) : Option Lexer := do
  return (← l.endBlocks).push .streamEnd

/-- Reads tokens up to the end of the text, at most as many as the bound. -/
def run : Nat → Lexer → Option Lexer
  | 0, _ => none
  | bound + 1, l => do
    let l ← (l.findToken (bound + 1)).dropStaleKeys
    match l.cursor.peek with
    | none => l.finish
    | some ch => run bound (← tokenAt ch (l.unroll l.cursor.column))

end Lexer

def Token.ofText? (text : String) : Option (List Token) :=
  let cs := text.toList
  if cs.all isPrintable then
    ((Lexer.run (cs.length + 1) { cursor := { rest := cs } }).map (·.tokens.toList))
  else none

end SchemaTypes.Yaml
