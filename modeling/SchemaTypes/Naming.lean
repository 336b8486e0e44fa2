import SchemaTypes.Settings
import SchemaTypes.Text.Blank
import SchemaTypes.Text.Identifier

/-! Type names. A generator answers requests for a name; the default one takes the pinned name, the
title or the hint of a schema, and counts on from 2 while the name is taken. -/

namespace SchemaTypes

open Text

inductive NamingError where
  | invalidMapping (name target : String)
  | invalidIdentifier (name : String)
  | collision (name : String)
  deriving DecidableEq

def NamingError.message : NamingError → String
  | invalidMapping name target =>
    "type name mapping produces an invalid identifier: " ++ name ++ " -> " ++ target
  | invalidIdentifier name =>
    "type name generator returned an invalid identifier: " ++ messageQuoted name
  | collision name =>
    "type name generator returned a name that is already assigned: " ++ name

/-- A request for the name of a schema. It tells which names are taken and how many requests
there were before. -/
structure NameRequest where
  graph : Graph
  schema : SchemaId
  hint : Option String
  taken : List String
  serial : Nat

abbrev NameGenerator := NameRequest → Except NamingError String

namespace Naming

def pinningKey : String := "x-typeName"

def pinnedName (node : Node) : Option String :=
  (node.extensions.lookup pinningKey).bind Json.text?

def notBlank (s : String) : Option String := if isBlankText s then none else some s

def hintName (hint : String) : String :=
  String.ofList (hint.toList.reverse.takeWhile fun c => c != '.' && c != '/').reverse

/-- What a schema would be named if every name were free. -/
def baseName (node : Node) (hint : Option String) : String :=
  let source :=
    pinnedName node <|> node.title.bind notBlank <|> (hint.map hintName).bind notBlank
  (source.map typeIdentifier).getD anonymous

def mappedName (settings : NamingSettings) (base : String) : Except NamingError String :=
  match settings.mappings.lookup base with
  | some target => if isIdentifier target then .ok target else .error (.invalidMapping base target)
  | none => .ok base

def numbered (base : String) (n : Nat) : String := base ++ toString n

/-- The name itself or the first numbered one that is not taken. -/
def firstFree (taken : List String) (base : String) : String :=
  if taken.contains base then
    let candidates := (List.range' 2 taken.length).map (numbered base)
    (candidates.find? (!taken.contains ·)).getD (numbered base (taken.length + 2))
  else base

def default (settings : NamingSettings) : NameGenerator := fun request => do
  let base := baseName (request.graph.node request.schema) request.hint
  return firstFree (request.taken ++ settings.reserved) (← mappedName settings base)

/-- Hands out the given names, one a request, and then goes on with another generator. -/
def listed (names : List String) (after : NameGenerator) : NameGenerator := fun request =>
  match names[request.serial]? with
  | some name => .ok name
  | none => after request

end Naming

end SchemaTypes
