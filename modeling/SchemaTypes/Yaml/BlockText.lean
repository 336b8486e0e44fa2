import SchemaTypes.Yaml.Cursor

/-! Block scalars: the lines below a header that are indented deeper than what surrounds them. -/

namespace SchemaTypes.Yaml

/-- What becomes of the line ends after the last line. -/
inductive Chomping where
  | strip
  | clip
  | keep
  deriving DecidableEq

def chomping? : Char → Option Chomping
  | '+' => some .keep
  | '-' => some .strip
  | _ => none

def readChomping (c : Cursor) : Option Chomping × Cursor :=
  match c.peek.bind chomping? with
  | some chomping => (some chomping, c.skip 1)
  | none => (none, c)

/-- How much deeper the lines are, if the header says so; zero is refused. -/
def readIncrement (c : Cursor) : Option (Option Nat × Cursor) :=
  match c.peek with
  | some ch =>
    if ch == '0' then none
    else if ch.isDigit then some (some (ch.toNat - '0'.toNat), c.skip 1)
    else some (none, c)
  | none => some (none, c)

/-- Reads the two indicators of a header, in either order. -/
def readHeader (c : Cursor) : Option (Chomping × Option Nat × Cursor) := do
  let (chomping?, c) := readChomping c
  let (increment, c) ← readIncrement c
  match chomping?, increment with
  | none, some _ =>
    let (later?, c) := readChomping c
    return (later?.getD .clip, increment, ← c.finishLine)
  | _, _ => return (chomping?.getD .clip, increment, ← c.finishLine)

/-- Passes over blanks as far as they are indentation; without a known column, over all. -/
def skipIndentation (column : Option Nat) (c : Cursor) : Cursor :=
  let blanks := (c.rest.takeWhile (· == ' ')).length
  c.skip (match column with
    | some column => min blanks (column - c.column)
    | none => blanks)

/-- Reads empty lines before the next line with text. Returns their line ends and the deepest
column reached. -/
def readEmptyLines (column : Option Nat) :
    Nat → List Char → Nat → Cursor → Option (List Char × Nat × Cursor)
  | 0, _, _, _ => none
  | bound + 1, breaks, deepest, c =>
    let c := skipIndentation column c
    let deepest := max deepest c.column
    let isShort := (column.map fun column => decide (c.column < column)).getD true
    if isShort && c.peek == some '\t' then none
    else
      match c.peek with
      | some ch =>
        if isBreak ch then
          let (cs, c) := c.readBreak
          readEmptyLines column bound (breaks ++ cs) deepest c
        else some (breaks, deepest, c)
      | none => some (breaks, deepest, c)

/-- Reads the lines of a block scalar. `lineEnd` is the end of the last line and `breaks` those of
the empty lines after it; `wasIndented` says whether that line began with white space. -/
def readLines (isFolded : Bool) (column : Nat) :
    Nat → List Char → List Char → List Char → Bool → Cursor →
      Option (List Char × List Char × List Char × Cursor)
  | 0, _, _, _, _, _ => none
  | bound + 1, out, lineEnd, breaks, wasIndented, c =>
    if c.column == column && !c.atEnd then do
      let isIndented := c.startsWith isSpacing
      let gap :=
        if isFolded && lineEnd == ['\n'] && !wasIndented && !isIndented then
          if breaks.isEmpty then [' '] else breaks
        else lineEnd ++ breaks
      let line := c.rest.takeWhile (!isBreak ·)
      let (lineEnd, c) := (c.skip line.length).readBreak
      let (breaks, _, c) ← readEmptyLines (some column) (bound + 1) [] 0 c
      let out := line.reverse ++ (gap.reverse ++ out)
      readLines isFolded column bound out lineEnd breaks isIndented c
    else some (out.reverse, lineEnd, breaks, c)

def Chomping.tail (lineEnd breaks : List Char) : Chomping → List Char
  | strip => []
  | clip => lineEnd
  | keep => lineEnd ++ breaks

/-- Reads a block scalar after its indicator; `indent` is the column of what surrounds it, or -1. -/
def readBlock (isFolded : Bool) (indent : Int) (c : Cursor) : Option (List Char × Cursor) := do
  let (chomping, increment, c) ← readHeader c
  let stated := increment.map fun n => (max indent 0).toNat + n
  let (breaks, deepest, c) ← readEmptyLines stated c.bound [] 0 c
  let column := stated.getD (max deepest (max (indent + 1) 1).toNat)
  let (text, lineEnd, breaks, c) ← readLines isFolded column c.bound [] [] breaks false c
  return (text ++ chomping.tail lineEnd breaks, c)

end SchemaTypes.Yaml
