import SchemaTypes.Command

/-! The command line on real files. -/

namespace SchemaTypes

namespace FileError

/-- The error with a number of the operating system, which may come negated. -/
def ofCode (code : UInt32) (text : String) : FileError :=
  let code := if 0x80000000 ≤ code then 0 - code else code
  if code = 2 then notFound
  else if code = 17 then alreadyExists
  else if code = 20 then notFolder
  else if code = 21 then isFolder
  else other (text ++ " (os error " ++ toString code ++ ")")

def ofSystem : IO.Error → FileError
  | .noFileOrDirectory _ code text => ofCode code text
  | .alreadyExists _ code text => ofCode code text
  | .inappropriateType _ code text => ofCode code text
  | .permissionDenied _ code text => ofCode code text
  | e => other (toString e)

end FileError

def attempt {α : Type} (action : IO α) : IO (Except FileError α) := do
  match ← action.toBaseIO with
  | .ok a => return .ok a
  | .error e => return .error (.ofSystem e)

instance : Workspace IO where
  readText path := attempt (IO.FS.readFile path)
  writeText path text := attempt (IO.FS.writeFile path text)
  makeFolders path := if path.isEmpty then return .ok () else attempt (IO.FS.createDirAll path)
  print text := IO.print text
  note line := IO.eprintln line

end SchemaTypes

open SchemaTypes in
def main (words : List String) : IO UInt32 := do
  match Command.ofWords? words with
  | some command => return if ← command.run then 0 else 1
  | none =>
    IO.eprintln Command.usage
    return 2
