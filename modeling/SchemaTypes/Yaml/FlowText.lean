import SchemaTypes.Json.Literal
import SchemaTypes.Yaml.Cursor

/-! Plain and quoted scalars. A line end inside one reads as a blank, and empty lines after it as
line ends. -/

namespace SchemaTypes.Yaml

/-- White space between two words of a scalar: on one line, or over a first line end and more. -/
structure Gap where
  spacing : List Char := []
  firstBreak : List Char := []
  moreBreaks : List Char := []
  overLines : Bool := false

namespace Gap

def isEmpty (g : Gap) : Bool := !g.overLines && g.spacing.isEmpty

def chars (g : Gap) : List Char :=
  if !g.overLines then g.spacing
  else if g.firstBreak == ['\n'] then
    if g.moreBreaks.isEmpty then [' '] else g.moreBreaks
  else g.firstBreak ++ g.moreBreaks

def addSpacing (g : Gap) (c : Char) : Gap :=
  if g.overLines then g else { g with spacing := g.spacing ++ [c] }

def addBreak (g : Gap) (cs : List Char) : Gap :=
  if g.overLines then { g with moreBreaks := g.moreBreaks ++ cs }
  else { g with spacing := [], firstBreak := cs, overLines := true }

/-- Extends a gap over all white space that follows. In the lines after the first a tab may not
stand left of column `indent`. -/
def extend (indent : Nat) : Nat → Gap → Cursor → Option (Gap × Cursor)
  | 0, _, _ => none
  | bound + 1, g, c =>
    match c.peek with
    | none => some (g, c)
    | some ch =>
      if isSpacing ch then
        if g.overLines && c.column < indent && ch == '\t' then none
        else extend indent bound (g.addSpacing ch) (c.skip 1)
      else if isBreak ch then
        let (cs, c) := c.readBreak
        extend indent bound (g.addBreak cs) c
      else some (g, c)

end Gap

/-- The character of an escape, and for the numeric ones how many digits follow. -/
def escape? : Char → Option (Char ⊕ Nat)
  | '0' => some (.inl '\x00')
  | 'a' => some (.inl '\x07')
  | 'b' => some (.inl '\x08')
  | 't' => some (.inl '\t')
  | '\t' => some (.inl '\t')
  | 'n' => some (.inl '\n')
  | 'v' => some (.inl '\x0b')
  | 'f' => some (.inl '\x0c')
  | 'r' => some (.inl '\r')
  | 'e' => some (.inl '\x1b')
  | ' ' => some (.inl ' ')
  | '"' => some (.inl '"')
  | '/' => some (.inl '/')
  | '\\' => some (.inl '\\')
  | 'N' => some (.inl '\u0085')
  | '_' => some (.inl '\u00a0')
  | 'L' => some (.inl '\u2028')
  | 'P' => some (.inl '\u2029')
  | 'x' => some (.inr 2)
  | 'u' => some (.inr 4)
  | 'U' => some (.inr 8)
  | _ => none

def isScalarValue (n : Nat) : Bool := n < 0xD800 || (0xDFFF < n && n ≤ 0x10FFFF)

def readEscape (c : Cursor) : Option (Char × Cursor) := do
  match ← escape? (← c.peek) with
  | .inl ch => return (ch, c.skip 1)
  | .inr width =>
    let digits := (c.rest.drop 1).take width
    if digits.length < width then none
    else
      let n ← Json.hexNumber? digits
      if isScalarValue n then return (Char.ofNat n, c.skip (width + 1)) else none

/-- Reads a quoted scalar after its opening quote. `out` holds what was read, last character
first, and `gap` the white space after it. -/
def readQuoted (quote : Char) : Nat → List Char → Gap → Cursor → Option (List Char × Cursor)
  | 0, _, _, _ => none
  | bound + 1, out, gap, c =>
    match c.rest with
    | [] => none
    | ch :: after =>
      if c.isDocumentMarker then none
      else if isSpacing ch || isBreak ch then do
        let (gap, c) ← gap.extend 0 (bound + 1) c
        readQuoted quote bound out gap c
      else
        let out := gap.chars.reverse ++ out
        if ch == quote then
          if quote == '\'' && after.head? == some '\'' then
            readQuoted quote bound ('\'' :: out) {} (c.skip 2)
          else some (out.reverse, c.skip 1)
        else if quote == '"' && ch == '\\' then
          if (after.head?.map isBreak).getD false then
            readQuoted quote bound out { overLines := true } (c.skip 1).skipBreak
          else do
            let (e, c) ← readEscape (c.skip 1)
            readQuoted quote bound (e :: out) {} c
        else readQuoted quote bound (ch :: out) {} (c.skip 1)

def isFlowMark (c : Char) : Bool := c == ',' || c == '[' || c == ']' || c == '{' || c == '}'

/-- Whether a plain scalar ends before the next character. -/
def endsPlain (inFlow : Bool) (c : Cursor) : Bool :=
  (c.peek == some ':' && c.isGapAt 1) || (inFlow && c.startsWith isFlowMark)

/-- A colon right before a mark of a flow collection has no meaning. -/
def isStrayColon (inFlow : Bool) (c : Cursor) : Bool :=
  inFlow && c.peek == some ':' &&
    ((c.peekAt 1).map fun ch => ch == '?' || isFlowMark ch).getD false

/-- Reads a plain scalar; its lines after the first stand at column `indent` or further. Returns
also whether it was followed by a line end. -/
def readPlain (inFlow : Bool) (indent : Nat) :
    Nat → List Char → Gap → Cursor → Option (List Char × Bool × Cursor)
  | 0, _, _, _ => none
  | bound + 1, out, gap, c =>
    if c.isGap && !c.atEnd then do
      let (gap, c) ← gap.extend indent (bound + 1) c
      if !inFlow && c.column < indent then some (out.reverse, gap.overLines, c)
      else if c.isDocumentMarker || c.peek == some '#' then some (out.reverse, gap.overLines, c)
      else readPlain inFlow indent bound out gap c
    else
      match c.peek with
      | none => some (out.reverse, gap.overLines, c)
      | some ch =>
        if isStrayColon inFlow c then none
        else if endsPlain inFlow c then some (out.reverse, gap.overLines, c)
        else readPlain inFlow indent bound (ch :: (gap.chars.reverse ++ out)) {} (c.skip 1)

end SchemaTypes.Yaml
