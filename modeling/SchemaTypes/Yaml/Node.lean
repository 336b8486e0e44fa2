import SchemaTypes.Entries
import SchemaTypes.Yaml.Lexer

/-! Documents as trees of nodes. An alias keeps the number of its anchor, since it may stand
inside the node that it stands for. -/

namespace SchemaTypes.Yaml

inductive Node where
  | scalar (tag : Option Tag) (style : Style) (text : String)
  | sequence (tag : Option Tag) (items : List Node)
  | mapping (tag : Option Tag) (entries : List (Node × Node))
  | aliasOf (anchor : Nat)

namespace Node

def empty : Node := scalar none .plain ""

mutual

/-- How many marks a listing of the node needs: one for a scalar or an alias, and two around the
parts of a collection. -/
def weight : Node → Nat
  | scalar _ _ _ => 1
  | aliasOf _ => 1
  | sequence _ items => itemsWeight items + 2
  | mapping _ entries => entriesWeight entries + 2

def itemsWeight : List Node → Nat
  | [] => 0
  | item :: rest => weight item + itemsWeight rest

def entriesWeight : List (Node × Node) → Nat
  | [] => 0
  | (key, value) :: rest => weight key + weight value + entriesWeight rest

end

end Node

/-- An anchored node: the number of the anchor, and where its node starts among all nodes. -/
structure Anchored where
  anchor : Nat
  start : Nat
  node : Node

structure ParserState where
  tokens : List Token
  /-- The tag handles with what they stand for. -/
  handles : List (String × Tag) := []
  /-- The anchors that were named so far, each with its latest number. -/
  anchors : List (String × Nat) := []
  anchored : List Anchored := []
  started : Nat := 0

abbrev Parser := StateT ParserState Option

namespace Parser

def peek : Parser (Option Token) := do return (← get).tokens.head?

def skip : Parser Unit := modify fun s => { s with tokens := s.tokens.drop 1 }

def isAt (ends : List Token) : Parser Bool := do
  return ((← peek).map ends.contains).getD true

def expect (token : Token) : Parser Unit := do
  if (← peek) == some token then skip else failure

/-- Names an anchor for the node that starts now. An anchor that is named again gets the number
that the next new anchor will have. -/
def nameAnchor (name : String) : Parser Nat := do
  let s ← get
  let number := s.anchors.length
  set { s with anchors := Entries.put name number s.anchors }
  return number

def findAnchor (name : String) : Parser Nat := do
  match (← get).anchors.lookup name with
  | some number => return number
  | none => failure

/-- The tag that a handle and a suffix stand for. -/
def expandTag (handle : String) (suffix : Tag) : Parser Tag := do
  if handle.isEmpty then return suffix
  else
    match (← get).handles.lookup handle with
    | some expansion => return expansion ++ suffix
    | none => failure

structure Properties where
  anchor : Option String := none
  tag : Option Tag := none

def readAnchor (p : Properties) : Parser Properties := do
  match ← peek with
  | some (.anchor name) =>
    skip
    return { p with anchor := some name }
  | _ => return p

def readTag (p : Properties) : Parser Properties := do
  match ← peek with
  | some (.tag handle suffix) =>
    skip
    return { p with tag := some (← expandTag handle suffix) }
  | _ => return p

/-- An anchor and a tag in either order. -/
def readProperties : Parser Properties := do
  match ← peek with
  | some (.anchor _) => readTag (← readAnchor {})
  | some (.tag _ _) => readAnchor (← readTag {})
  | _ => return {}

def startNode : Parser Nat :=
  modifyGet fun s => (s.started, { s with started := s.started + 1 })

def keep (anchor : Option Nat) (start : Nat) (node : Node) : Parser Node := do
  match anchor with
  | some anchor =>
    modify fun s => { s with anchored := ⟨anchor, start, node⟩ :: s.anchored }
    return node
  | none => return node

def emptyNode : Parser Node := do
  discard startNode
  return .empty

mutual

/-- A node. `inBlock` says whether block collections may start here, and `isIndentless` whether
entries of a sequence may stand without indentation. -/
def node (inBlock isIndentless : Bool) : Nat → Parser Node
  | 0 => failure
  | bound + 1 => do
    match ← peek with
    | some (.aliasOf name) =>
      skip
      discard startNode
      return .aliasOf (← findAnchor name)
    | _ =>
      let p ← readProperties
      let token ← peek
      let start ← startNode
      let anchor ← p.anchor.mapM nameAnchor
      keep anchor start (← content inBlock isIndentless p token bound)

def content (inBlock isIndentless : Bool) (p : Properties) (token : Option Token) :
    Nat → Parser Node
  | 0 => failure
  | bound + 1 => do
    match token with
    | some (.scalar style text) =>
      skip
      return .scalar p.tag style text
    | some .flowSequenceStart =>
      skip
      return .sequence p.tag (← flowItems true bound)
    | some .flowMappingStart =>
      skip
      return .mapping p.tag (← flowEntries true bound)
    | some .blockEntry =>
      if isIndentless then return .sequence p.tag (← plainItems bound)
      else missing p
    | some .blockSequenceStart =>
      if inBlock then
        skip
        return .sequence p.tag (← blockItems bound)
      else missing p
    | some .blockMappingStart =>
      if inBlock then
        skip
        return .mapping p.tag (← blockEntries bound)
      else missing p
    | _ => missing p

def blockItems : Nat → Parser (List Node)
  | 0 => failure
  | bound + 1 => do
    match ← peek with
    | some .blockEntry =>
      skip
      let item ←
        if ← isAt [.blockEntry, .blockEnd] then emptyNode else node true false bound
      return item :: (← blockItems bound)
    | some .blockEnd =>
      skip
      return []
    | _ => failure

/-- The items of a sequence that has no indentation of its own. -/
def plainItems : Nat → Parser (List Node)
  | 0 => failure
  | bound + 1 => do
    match ← peek with
    | some .blockEntry =>
      skip
      let item ←
        if ← isAt [.blockEntry, .key, .value, .blockEnd] then emptyNode
        else node true false bound
      return item :: (← plainItems bound)
    | _ => return []

def blockEntries : Nat → Parser (List (Node × Node))
  | 0 => failure
  | bound + 1 => do
    match ← peek with
    | some .key =>
      skip
      let key ← blockPart bound
      let value ← blockValue bound
      return (key, value) :: (← blockEntries bound)
    | some .blockEnd =>
      skip
      return []
    | _ => failure

/-- A key or a value in a block mapping; nothing may stand there. -/
def blockPart : Nat → Parser Node
  | 0 => failure
  | bound + 1 => do
    if ← isAt [.key, .value, .blockEnd] then emptyNode else node true true bound

def blockValue : Nat → Parser Node
  | 0 => failure
  | bound + 1 => do
    if (← peek) == some .value then
      skip
      blockPart bound
    else emptyNode

def flowItems (isFirst : Bool) : Nat → Parser (List Node)
  | 0 => failure
  | bound + 1 => do
    if (← peek) == some .flowSequenceEnd then
      skip
      return []
    else
      if !isFirst then expect .flowEntry
      match ← peek with
      | some .key =>
        skip
        discard startNode
        let item ← flowPair bound
        return item :: (← flowItems false bound)
      | some .flowSequenceEnd =>
        skip
        return []
      | _ =>
        let item ← node false false bound
        return item :: (← flowItems false bound)

/-- A mapping with one entry inside a flow sequence. A token that stands where its key should be
is passed over with it. -/
def flowPair : Nat → Parser Node
  | 0 => failure
  | bound + 1 => do
    let key ←
      if ← isAt [.value, .flowEntry, .flowSequenceEnd] then
        skip
        emptyNode
      else node false false bound
    let value ← flowValue .flowSequenceEnd bound
    return .mapping none [(key, value)]

/-- The value of an entry in a flow collection that ends with the given token. -/
def flowValue (closing : Token) : Nat → Parser Node
  | 0 => failure
  | bound + 1 => do
    if (← peek) == some .value then
      skip
      if ← isAt [.flowEntry, closing] then emptyNode else node false false bound
    else emptyNode

def flowEntries (isFirst : Bool) : Nat → Parser (List (Node × Node))
  | 0 => failure
  | bound + 1 => do
    if (← peek) == some .flowMappingEnd then
      skip
      return []
    else
      if !isFirst then expect .flowEntry
      match ← peek with
      | some .key =>
        skip
        let key ←
          if ← isAt [.value, .flowEntry, .flowMappingEnd] then emptyNode
          else node false false bound
        let value ← flowValue .flowMappingEnd bound
        return (key, value) :: (← flowEntries false bound)
      | some .flowMappingEnd =>
        skip
        return []
      | _ =>
        let key ← node false false bound
        let value ← emptyNode
        return (key, value) :: (← flowEntries false bound)

/-- A node of which only the anchor or the tag is written. -/
def missing (p : Properties) : Parser Node := do
  if p.anchor.isSome || p.tag.isSome then return .scalar p.tag .plain "" else failure

end

/-- The directives before a document: at most one version, and each handle at most once. -/
def directives (versionSeen : Bool) : List Token → List (String × Tag) →
    Option (List Token × List (String × Tag))
  | .version major minor :: rest, handles =>
    if versionSeen || major != 1 || (minor != 1 && minor != 2) then none
    else directives true rest handles
  | .tagDirective handle expansion :: rest, handles =>
    if Entries.has handle handles then none
    else directives versionSeen rest (handles ++ [(handle, expansion)])
  | rest, handles => some (rest, handles)

def standardHandles : List (String × Tag) := [("!", .mark), ("!!", .standard)]

def isDocumentEdge : Token → Bool
  | .version _ _ | .tagDirective _ _ | .documentStart | .documentEnd | .streamEnd => true
  | _ => false

def documentContent (bound : Nat) : Parser Node := do
  if ((← peek).map isDocumentEdge).getD true then emptyNode else node true false bound

/-- The only document of a stream; a stream without tokens has none. -/
def document (bound : Nat) : Parser (Option Node) := do
  match ← peek with
  | some .streamEnd => return none
  | some (.version _ _) | some (.tagDirective _ _) | some .documentStart =>
    let s ← get
    match directives false s.tokens [] with
    | some (tokens, handles) =>
      set { s with tokens, handles := handles ++ standardHandles }
      expect .documentStart
      return some (← documentContent bound)
    | none => failure
  | _ => return some (← node true false bound)

def ofTokens (tokens : List Token) : ParserState := { tokens, handles := standardHandles }

end Parser

structure Tree where
  root : Option Node
  anchored : List Anchored := []

namespace Tree

/-- The node of an anchor. If several nodes got the same number it is the last one to start. -/
def node? (t : Tree) (anchor : Nat) : Option Node :=
  let found := t.anchored.filter (·.anchor == anchor)
  (found.foldl (fun best? a =>
    match best? with
    | some best => if best.start < a.start then some a else some best
    | none => some a) none).map (·.node)

def weight (t : Tree) : Nat := (t.root.map Node.weight).getD 1

/-- Nothing but document ends may follow the document. -/
def ofTokens? (tokens : List Token) : Option Tree := do
  let (root, s) ← (Parser.document (6 * (tokens.length + 1))).run (Parser.ofTokens tokens)
  if s.tokens.dropWhile (· == .documentEnd) == [.streamEnd] then
    return { root, anchored := s.anchored }
  else none

def ofText? (text : String) : Option Tree := do ofTokens? (← Token.ofText? text)

end Tree

end SchemaTypes.Yaml
