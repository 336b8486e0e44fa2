/-! The files that a command works on. A path is a text whose parts are separated by slashes. -/

namespace SchemaTypes

inductive FileError where
  | notFound
  | notFolder
  | isFolder
  | alreadyExists
  | other (text : String)
  deriving DecidableEq

def FileError.message : FileError → String
  | notFound => "No such file or directory (os error 2)"
  | alreadyExists => "File exists (os error 17)"
  | notFolder => "Not a directory (os error 20)"
  | isFolder => "Is a directory (os error 21)"
  | other text => text

/-- Where commands read and write files and print lines. -/
class Workspace (m : Type → Type) extends Monad m where
  readText : String → m (Except FileError String)
  writeText : String → String → m (Except FileError Unit)
  makeFolders : String → m (Except FileError Unit)
  print : String → m Unit
  /-- Prints a line that is no result. -/
  note : String → m Unit

namespace FilePath

def splitAtSlashes : List Char → List (List Char)
  | [] => [[]]
  | c :: rest =>
    match c == '/', splitAtSlashes rest with
    | true, parts => [] :: parts
    | false, part :: parts => (c :: part) :: parts
    | false, [] => [[c]]

/-- The parts of a path without empty ones and single dots. -/
def parts (path : String) : List String :=
  ((splitAtSlashes path.toList).map String.ofList).filter fun part =>
    !part.isEmpty && part != "."

def join (folder name : String) : String :=
  if folder.isEmpty || folder.toList.getLast? == some '/' then folder ++ name
  else folder ++ "/" ++ name

/-- The characters after the last dot of a name that does not start with it. -/
def nameExtension (name : String) : Option String :=
  let cs := name.toList
  let ending := (cs.reverse.takeWhile (· != '.')).reverse
  if name == ".." || cs.length ≤ ending.length + 1 then none else some (String.ofList ending)

def extension (path : String) : Option String := (parts path).getLast?.bind nameExtension

end FilePath

end SchemaTypes
