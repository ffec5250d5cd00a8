import CodeIndex.Yaml.Layout
import CodeIndex.Yaml.Tag

/-!
# Nodes of YAML documents

The tokens of a document are composed into a tree of nodes, each with its tag. An alias stands for
the node of its anchor, which came before. An alias inside the node that it names is a `cycle` at
first; once that node is complete it is unfolded (`Node.unfold`): a copy of it takes the place of
each cycle, a few times over. What is left of the cycle then lies deeper than any setting is read.

`Composer` is a recursive-descent parser over tokens. Each notion is defined over the parser `node`
of nodes one level further down, and `node` closes the recursion by a bound on the depth.
-/

namespace CodeIndex.Yaml

/-- A node of a document. -/
inductive Node where
  | scalar (tag : Text) (text : Text)
  | sequence (tag : Text) (items : List Node)
  | mapping (tag : Text) (entries : List (Node × Node))
  /-- An alias of a node that contains it, by its anchor. -/
  | cycle (anchor : Text)
  deriving Inhabited

namespace Node

mutual

/-- The node with a copy of another one in place of the cycles of an anchor. -/
def fill (anchor : Text) (copy : Node) : (n : Node) → Node
  | scalar tag text => scalar tag text
  | sequence tag items => sequence tag (fillItems anchor copy items)
  | mapping tag entries => mapping tag (fillEntries anchor copy entries)
  | cycle a => if a = anchor then copy else cycle a

/-- The items with a copy of a node in place of the cycles of an anchor. -/
def fillItems (anchor : Text) (copy : Node) : List Node → List Node
  | [] => []
  | n :: items => fill anchor copy n :: fillItems anchor copy items

/-- The entries with a copy of a node in place of the cycles of an anchor. -/
def fillEntries (anchor : Text) (copy : Node) : List (Node × Node) → List (Node × Node)
  | [] => []
  | (k, v) :: entries => (fill anchor copy k, fill anchor copy v) :: fillEntries anchor copy entries

end

mutual

/-- How many nodes lie one inside the other at most. -/
def depth : Node → Nat
  | sequence _ items => depthOfItems items + 1
  | mapping _ entries => depthOfEntries entries + 1
  | _ => 1

/-- How many nodes lie one inside the other at most, in some items. -/
def depthOfItems : List Node → Nat
  | [] => 0
  | n :: items => max (depth n) (depthOfItems items)

/-- How many nodes lie one inside the other at most, in some entries. -/
def depthOfEntries : List (Node × Node) → Nat
  | [] => 0
  | (k, v) :: entries => max (max (depth k) (depth v)) (depthOfEntries entries)

end

/-- The node of an anchor with copies of itself in place of its cycles, some times over. -/
def unfold (anchor : Text) (n : Node) : (times : Nat) → Node
  | 0 => n
  | times + 1 => fill anchor (unfold anchor n times) n

end Node

/-- How often the node of an anchor is unfolded. An item of a list of a setting lies three levels
below the root, and what is left of a cycle one level more. -/
def unfoldings : Nat := 3

/-- What the composer keeps. -/
structure Composition where
  tokens : List Token
  /-- The shorthands for the starts of tags. -/
  handles : List (Text × Text)
  /-- The anchors so far, with their nodes once those are complete. -/
  anchors : List (Text × Option Node) := []
  limit : Nat

/-- A computation that composes nodes. -/
abbrev Composer := StateT Composition (Except Fault)

namespace Composer

/-- The next token. -/
def peek : Composer Token := return (← get).tokens.headD .finish

/-- Goes on to the next token. -/
def advance : Composer Unit := modify fun s => { s with tokens := s.tokens.tail }

/-- The next token is one of some. -/
def sees (ts : List Token) : Composer Bool := return ts.contains (← peek)

/-- Reads the given token if it is next. -/
def accept (t : Token) : Composer Bool := do
  if (← peek) = t then advance; return true
  return false

/-- Reads the given token. -/
def expect (t : Token) : Composer Unit := do
  unless ← accept t do throw .malformed

/-- Collects results until `p` has none. -/
def collectFrom {α : Type} (p : Composer (Option α)) : (limit : Nat) → List α → Composer (List α)
  | 0, _ => throw .malformed
  | limit + 1, seen => do
    match ← p with
    | none => return seen.reverse
    | some a => collectFrom p limit (a :: seen)

/-- The results of `p`, read until it has none. -/
def collect {α : Type} (p : Composer (Option α)) : Composer (List α) := do
  collectFrom p (← get).limit []

/-- A scalar that is left out. -/
def absent : Node := .scalar (Tag.ofPlain []) []

/-! ## Properties of nodes -/

/-- The anchor at the next token, if there is one. -/
def anchor? : Composer (Option Text) := do
  match ← peek with
  | .anchor name =>
    advance
    return some name
  | _ => return none

/-- The tag at the next token, if there is one, without its shorthand. -/
def tag? : Composer (Option Text) := do
  match ← peek with
  | .tag none suffix =>
    advance
    return some suffix
  | .tag (some handle) suffix =>
    advance
    match (← get).handles.lookup handle with
    | some start => return some (start ++ suffix)
    | none => throw .malformed
  | _ => return none

/-- The anchor and the tag of a node, in either order. -/
def properties : Composer (Option Text × Option Text) := do
  match ← anchor? with
  | some name => return (some name, ← tag?)
  | none =>
    let tag ← tag?
    return (← if tag.isSome then anchor? else pure none, tag)

/-- Composes the node of an anchor. Until it is complete, an alias of it is a cycle; then the cycles
are unfolded, also in the nodes of the anchors inside. -/
def anchored (name : Option Text) (p : Composer Node) : Composer Node := do
  match name with
  | none => p
  | some name =>
    if (← get).anchors.any (·.1 = name) then throw .malformed
    modify fun s => { s with anchors := (name, none) :: s.anchors }
    let n := Node.unfold name (← p) unfoldings
    modify fun s => { s with
      anchors := (name, some n) ::
        (s.anchors.filter (·.1 ≠ name)).map fun (a, m) => (a, m.map (Node.fill name n)) }
    return n

/-- The node of an alias. -/
def aliased (name : Text) : Composer Node := do
  match (← get).anchors.lookup name with
  | some (some n) => return n
  | some none => return .cycle name
  | none => throw .malformed

/-! ## Collections -/

variable (node : (inBlock indentless : Bool) → Composer Node)

/-- A node, unless one of some tokens comes first. -/
def nodeUnless (ts : List Token) (inBlock indentless : Bool) : Composer Node := do
  if ← sees ts then return absent
  node inBlock indentless

/-- An entry of a block sequence. -/
def blockEntry (ends : List Token) : Composer (Option Node) := do
  unless ← accept .blockEntry do return none
  return some (← nodeUnless node (.blockEntry :: ends) true false)

/-- A block sequence with an indentation of its own. -/
def blockSequence : Composer (List Node) := do
  let items ← collect (blockEntry node [.blockEnd])
  expect .blockEnd
  return items

/-- A block sequence with the indentation of the mapping around it. -/
def indentlessSequence : Composer (List Node) :=
  collect (blockEntry node [.key, .value, .blockEnd])

/-- The tokens that end an entry of a block mapping. -/
def blockMappingEnds : List Token := [.key, .value, .blockEnd]

/-- A value after a mark, or nothing. -/
def valueUnless (ends : List Token) (inBlock : Bool) : Composer Node := do
  if ← accept .value then nodeUnless node ends inBlock inBlock else return absent

/-- An entry of a block mapping. -/
def blockPair : Composer (Option (Node × Node)) := do
  unless ← accept .key do return none
  let key ← nodeUnless node blockMappingEnds true true
  return some (key, ← valueUnless node blockMappingEnds true)

/-- A block mapping. -/
def blockMapping : Composer (List (Node × Node)) := do
  let entries ← collect (blockPair node)
  expect .blockEnd
  return entries

/-- The entries of a flow collection up to its end, with commas in between. -/
def flowEntries {α : Type} (closing : Token) (entry : Composer α) : Composer (List α) := do
  if ← accept closing then return []
  let first ← entry
  let more ← collect do
    if ← accept closing then return none
    expect .flowEntry
    if ← accept closing then return none
    return some (← entry)
  return first :: more

/-- An entry of a flow sequence: a node, or a mapping of one key. -/
def flowItem : Composer Node := do
  if ← accept .key then
    let key ← nodeUnless node [.value, .flowEntry, .flowSequenceEnd] false false
    let value ← valueUnless node [.flowEntry, .flowSequenceEnd] false
    return .mapping Tag.map [(key, value)]
  node false false

/-- An entry of a flow mapping. A key without a mark has no value. -/
def flowPair : Composer (Node × Node) := do
  if ← accept .key then
    let key ← nodeUnless node [.value, .flowEntry, .flowMappingEnd] false false
    return (key, ← valueUnless node [.flowEntry, .flowMappingEnd] false)
  return (← node false false, absent)

/-! ## Nodes -/

/-- The content of a node with a tag. -/
def content (tag : Option Text) (inBlock indentless hasProperties : Bool) : Composer Node := do
  let given := tag.filter (· ≠ ['!'])
  match ← peek with
  | .blockEntry =>
    if indentless then return .sequence (given.getD Tag.seq) (← indentlessSequence node)
    if hasProperties then return .scalar (given.getD (Tag.ofPlain [])) []
    throw .malformed
  | .scalar text isPlain =>
    advance
    let byContent := (isPlain && tag.isNone) || tag = some ['!']
    return .scalar (given.getD (if byContent then Tag.ofPlain text else Tag.str)) text
  | .flowSequenceStart =>
    advance
    return .sequence (given.getD Tag.seq) (← flowEntries .flowSequenceEnd (flowItem node))
  | .flowMappingStart =>
    advance
    return .mapping (given.getD Tag.map) (← flowEntries .flowMappingEnd (flowPair node))
  | t =>
    if inBlock && t = .blockSequenceStart then
      advance
      return .sequence (given.getD Tag.seq) (← blockSequence node)
    if inBlock && t = .blockMappingStart then
      advance
      return .mapping (given.getD Tag.map) (← blockMapping node)
    if hasProperties then return .scalar (given.getD (Tag.ofPlain [])) []
    throw .malformed

end Composer

open Composer

/-- A node, to a depth. -/
def Composer.node : (depth : Nat) → (inBlock indentless : Bool) → Composer Node
  | 0, _, _ => throw .malformed
  | depth + 1, inBlock, indentless => do
    if let .alias name ← peek then
      advance
      return ← aliased name
    let (anchor, tag) ← properties
    anchored anchor (content (fun b i => node depth b i) tag inBlock indentless
      (anchor.isSome || tag.isSome))

/-! ## Documents -/

/-- The shorthands for tags that every document has. -/
def defaultHandles : List (Text × Text) := [(['!'], ['!']), (['!', '!'], Tag.core)]

/-- A directive before a document. -/
def directive (versions : Nat) : Composer (Option Nat) := do
  match ← peek with
  | .version major =>
    advance
    unless versions = 0 && major = 1 do throw .malformed
    return some 1
  | .tagShorthand handle start =>
    advance
    if (← get).handles.any (·.1 = handle) then throw .malformed
    modify fun s => { s with handles := (handle, start) :: s.handles }
    return some versions
  | .otherDirective =>
    advance
    return some versions
  | _ => return none

/-- All directives before a document, after some that give the version. -/
def directives : (limit : Nat) → (versions : Nat) → Composer Unit
  | 0, _ => throw .malformed
  | limit + 1, versions => do
    if let some versions ← directive versions then directives limit versions

/-- The tokens at which a document without content ends. -/
def isDocumentEnd : Token → Bool
  | .version _ | .tagShorthand _ _ | .otherDirective | .documentStart | .documentEnd | .finish =>
    true
  | _ => false

/-- A document from its directives on. -/
def explicitDocument (limit : Nat) : Composer Node := do
  modify fun s => { s with handles := [] }
  directives limit 0
  modify fun s => { s with handles := s.handles ++ defaultHandles }
  expect .documentStart
  if isDocumentEnd (← peek) then return absent
  Composer.node limit true false

/-- The root of the only document of a stream, if there is one. -/
def stream (limit : Nat) : Composer (Option Node) := do
  match ← peek with
  | .finish => return none
  | t =>
    let isExplicit := isDocumentEnd t && t ≠ .documentEnd
    let root ← if isExplicit then explicitDocument limit else Composer.node limit true false
    let _ ← collect do return if ← accept .documentEnd then some () else none
    unless (← peek) = .finish do throw .malformed
    return some root

/-- The root of a document, if it has one. -/
def root? (document : Text) : Except Fault (Option Node) := do
  let tokens ← Yaml.tokens document
  let limit := tokens.length + 1
  let (root, _) ← (stream limit).run { tokens, handles := defaultHandles, limit }
  return root

end CodeIndex.Yaml
