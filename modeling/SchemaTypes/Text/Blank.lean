import SchemaTypes.Text.CharSet

/-! White space, lines, and texts brought onto one line. Lines end at line feeds; a carriage
return before one is white space at the end of its line. -/

namespace SchemaTypes.Text

def blankRanges : List (Nat × Nat) :=
  [(9, 0xD), (0x20, 0x20), (0x85, 0x85), (0xA0, 0xA0), (0x1680, 0x1680), (0x2000, 0x200A),
   (0x2028, 0x2029), (0x202F, 0x202F), (0x205F, 0x205F), (0x3000, 0x3000)]

def isBlank (c : Char) : Bool := inRanges blankRanges c

def trim (cs : List Char) : List Char :=
  ((cs.dropWhile isBlank).reverse.dropWhile isBlank).reverse

def splitLines : List Char → List (List Char)
  | [] => [[]]
  | c :: rest =>
    match c == '\n', splitLines rest with
    | true, lines => [] :: lines
    | false, line :: lines => (c :: line) :: lines
    | false, [] => [[c]]

def isBlankText (s : String) : Bool := (trim s.toList).isEmpty

/-- The trimmed lines that are not empty, joined by single spaces. -/
def oneLine (s : String) : String :=
  " ".intercalate
    ((((splitLines s.toList).map trim).filter (!·.isEmpty)).map String.ofList)

end SchemaTypes.Text
