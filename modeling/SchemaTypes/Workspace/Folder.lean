import SchemaTypes.Entries
import SchemaTypes.Workspace.Basic

/-! Files in memory. A folder exists if it was made or if a file or folder is in it. -/

namespace SchemaTypes

/-- The way to a file or folder from the folder that commands run in. It starts with two dots for
each level that it leads out of that folder. -/
abbrev Location := List String

namespace Location

def isOutside (place : Location) : Bool := place.head? == some ".."

def enclosing (place : Location) : Location :=
  if place.all (· == "..") then ".." :: place else place.dropLast

end Location

structure Folder where
  files : List (Location × String) := []
  folders : List Location := []
  printed : String := ""
  notes : List String := []

namespace Folder

def isFile (f : Folder) (place : Location) : Bool := f.files.any (·.1 == place)

def isFolder (f : Folder) (place : Location) : Bool :=
  place.all (· == "..") || f.folders.any (place.isPrefixOf ·) ||
    f.files.any fun (file, _) => place.isPrefixOf file && file != place

/-- What a path leads to: a place in an existing folder. -/
def locate (f : Folder) (here : Location) : List String → Except FileError Location
  | [] => .ok here
  | part :: rest =>
    if f.isFile here then .error .notFolder
    else if !f.isFolder here then .error .notFound
    else if part == ".." then f.locate here.enclosing rest
    else f.locate (here ++ [part]) rest

def find (f : Folder) (path : String) : Except FileError Location :=
  if path.isEmpty then .error .notFound
  else do
    let found ← f.locate [] (FilePath.parts path)
    if path.toList.getLast? == some '/' && f.isFile found then .error .notFolder
    else return found

def read (f : Folder) (path : String) : Except FileError String := do
  let found ← f.find path
  match f.files.lookup found with
  | some text => return text
  | none => .error (if f.isFolder found then .isFolder else .notFound)

def write (f : Folder) (path text : String) : Except FileError Folder := do
  let found ← f.find path
  if f.isFolder found then .error .isFolder
  else return { f with files := Entries.put found text f.files }

def makeFolder (f : Folder) (parts : List String) : Except FileError Folder := do
  let found ← f.locate [] parts
  if f.isFile found || f.isFolder found then .error .alreadyExists
  else return { f with folders := f.folders ++ [found] }

/-- Takes the outcome of making a folder, which may be there already. -/
def settle (f : Folder) (parts : List String) (made : Except FileError Folder) :
    Except FileError Folder :=
  match made with
  | .ok made => .ok made
  | .error e => if (f.locate [] parts).toOption.any f.isFolder then .ok f else .error e

/-- Makes a folder, and before it those that lead to it if they are missing. The parts come with
the last one first. -/
def makeReversed (f : Folder) : List String → Except FileError Folder
  | [] => .ok f
  | part :: outer =>
    let parts := (part :: outer).reverse
    match f.makeFolder parts with
    | .error .notFound => do
      let f ← f.makeReversed outer
      f.settle parts (f.makeFolder parts)
    | made => f.settle parts made

def makeFolders (f : Folder) (path : String) : Except FileError Folder :=
  f.makeReversed (FilePath.parts path).reverse

def ofFiles (files : List (String × String)) : Folder :=
  { files := files.map fun (path, text) => (FilePath.parts path, text) }

/-- The files inside that are new or have another text than before, by their paths. -/
def changesSince (before after : Folder) : List (String × String) :=
  (after.files.filter fun (file, text) =>
    !Location.isOutside file && before.files.lookup file != some text).map
      fun (file, text) => ("/".intercalate file, text)

end Folder

abbrev InFolder := StateM Folder

namespace InFolder

/-- Replaces the folder by what an action makes of it, unless the action fails. -/
def change (act : Folder → Except FileError Folder) : InFolder (Except FileError Unit) := do
  match act (← get) with
  | .ok f =>
    set f
    return .ok ()
  | .error e => return .error e

end InFolder

instance : Workspace InFolder where
  readText path := do return (← get).read path
  writeText path text := InFolder.change (·.write path text)
  makeFolders path := InFolder.change (·.makeFolders path)
  print text := modify fun f => { f with printed := f.printed ++ text }
  note line := modify fun f => { f with notes := f.notes ++ [line] }

end SchemaTypes
