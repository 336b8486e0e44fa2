import SchemaTypes.Text.Alphabet
import SchemaTypes.Text.LetterCase

/-! Words in a text and their capitalised forms. A word ends at a character that is neither a
letter nor a numeral, after a lower case letter before an upper case one, and before the last
capital of a run of capitals that a lower case letter follows. -/

namespace SchemaTypes.Text

inductive LetterMode where
  | start
  | lower
  | upper
  deriving DecidableEq

def LetterMode.after (mode : LetterMode) (c : Char) : LetterMode :=
  if isLower c then .lower else if isUpper c then .upper else mode

/-- Cuts a run of letters and numerals into words; `word` is the word read so far. -/
def cutWords (mode : LetterMode) (word : List Char) : List Char → List (List Char)
  | [] => []
  | [c] => [word ++ [c]]
  | c :: next :: rest =>
    if mode.after c = .lower && isUpper next then
      (word ++ [c]) :: cutWords .start [] (next :: rest)
    else if mode = .upper && isUpper c && isLower next then
      word :: cutWords .start [c] (next :: rest)
    else
      cutWords (mode.after c) (word ++ [c]) (next :: rest)

/-- The runs of letters and numerals, with empty runs between neighbouring separators. -/
def alphanumericRuns : List Char → List (List Char)
  | [] => [[]]
  | c :: rest =>
    match isAlphanumeric c, alphanumericRuns rest with
    | false, runs => [] :: runs
    | true, run :: runs => (c :: run) :: runs
    | true, [] => [[c]]

def words (cs : List Char) : List (List Char) :=
  (alphanumericRuns cs).flatMap (cutWords .start [])

/-- The rest of a word in lower case, where a sigma at the end takes its final form. -/
def lowerRest : List Char → List Char
  | [] => []
  | ['Σ'] => ['ς']
  | c :: rest => toLower c ++ lowerRest rest

def capitalize : List Char → List Char
  | [] => []
  | c :: rest => toUpper c ++ lowerRest rest

def pascalCase (cs : List Char) : List Char := (words cs).flatMap capitalize

end SchemaTypes.Text
