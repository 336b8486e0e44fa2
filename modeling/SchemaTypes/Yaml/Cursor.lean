/-! A place in YAML text. Lines end at carriage returns, line feeds, and the three further line
separators; all of them but the last two read as a line feed. -/

namespace SchemaTypes.Yaml

def isBreak (c : Char) : Bool :=
  c == '\n' || c == '\r' || c == '\u0085' || c == '\u2028' || c == '\u2029'

def isSpacing (c : Char) : Bool := c == ' ' || c == '\t'

/-- A letter, digit, underscore or hyphen, as in the names of anchors and tag handles. -/
def isNameChar (c : Char) : Bool := c.isAlphanum || c == '_' || c == '-'

/-- Characters that may stand in YAML text at all. -/
def isPrintable (c : Char) : Bool :=
  c == '\t' || c == '\n' || c == '\r' || c == '\u0085' ||
    (0x20 ≤ c.toNat && c.toNat ≤ 0x7E) ||
    (0xA0 ≤ c.toNat && c.toNat ≤ 0xFFFD) || 0x10000 ≤ c.toNat

def byteCount (cs : List Char) : Nat := cs.foldl (fun n c => n + c.utf8Size) 0

structure Cursor where
  rest : List Char
  offset : Nat := 0
  line : Nat := 0
  column : Nat := 0

namespace Cursor

def atEnd (c : Cursor) : Bool := c.rest.isEmpty

def peek (c : Cursor) : Option Char := c.rest.head?

def peekAt (c : Cursor) (n : Nat) : Option Char := c.rest[n]?

def startsWith (c : Cursor) (p : Char → Bool) : Bool := (c.peek.map p).getD false

/-- Whether white space, a line end or the end of the text stands `n` characters ahead. -/
def isGapAt (c : Cursor) (n : Nat) : Bool :=
  match c.peekAt n with
  | some ch => isSpacing ch || isBreak ch
  | none => true

def isGap (c : Cursor) : Bool := c.isGapAt 0

def atLineEnd (c : Cursor) : Bool :=
  match c.peek with
  | some ch => isBreak ch
  | none => true

def skip (n : Nat) (c : Cursor) : Cursor :=
  { c with
    rest := c.rest.drop n
    offset := c.offset + byteCount (c.rest.take n)
    column := c.column + n }

def skipWhile (p : Char → Bool) (c : Cursor) : Cursor := c.skip (c.rest.takeWhile p).length

def nextLine (n : Nat) (c : Cursor) : Cursor :=
  ⟨c.rest.drop n, c.offset + byteCount (c.rest.take n), c.line + 1, 0⟩

def readBreak (c : Cursor) : List Char × Cursor :=
  match c.rest with
  | '\r' :: '\n' :: _ => (['\n'], c.nextLine 2)
  | ch :: _ =>
    if ch == '\u2028' || ch == '\u2029' then ([ch], c.nextLine 1)
    else if isBreak ch then (['\n'], c.nextLine 1)
    else ([], c)
  | [] => ([], c)

def skipBreak (c : Cursor) : Cursor := c.readBreak.2

def skipComment (c : Cursor) : Cursor :=
  if c.peek == some '#' then c.skipWhile (!isBreak ·) else c

/-- Passes over the rest of a line that may only hold white space and a comment. -/
def finishLine (c : Cursor) : Option Cursor :=
  let c := (c.skipWhile isSpacing).skipComment
  if c.atLineEnd then some c.skipBreak else none

/-- Three hyphens or three dots at the beginning of a line. -/
def isMarker (mark : Char) (c : Cursor) : Bool :=
  c.column == 0 && c.rest.take 3 == [mark, mark, mark] && c.isGapAt 3

def isDocumentMarker (c : Cursor) : Bool := c.isMarker '-' || c.isMarker '.'

def bound (c : Cursor) : Nat := c.rest.length + 1

end Cursor

end SchemaTypes.Yaml
