import CodeIndex.Script.Node
import CodeIndex.Script.Token

/-!
# Parsers of scripts

A parser reads tokens from an `Input` and may fail; a failed alternative leaves no trace, so that `p
<|> q` reads with `q` from where `p` began. Nodes of the syntax tree are made from a `Mark`, taken
where they start, up to the last token read.

Comments make no nodes. A node ends with its last token, so the comments before a statement are the
source between the last token before it and its own first token.
-/

namespace CodeIndex.Script

open Text

/-- What a parser reads from: it stands at a token. -/
structure Input where
  token : Token
  /-- Where the token starts. -/
  start : Point
  /-- The place after the token. -/
  after : Point
  /-- A line ends between the last token and this one. -/
  newline : Bool
  /-- The place after the last token. -/
  last : Point
  deriving Inhabited

/-- The input at a place. -/
def Input.ofPoint (p : Point) : Input :=
  let (start, newline) := p.skipTrivia
  let (token, after) := start.lex
  { token, start, after, newline, last := p }

/-- A parser. -/
abbrev Parser := StateT Input Option

/-- Where a node starts. -/
structure Mark where
  start : Nat
  row : Nat

namespace Parser

/-! ## Tokens -/

/-- The present token. -/
def token : Parser Token := return (← get).token

/-- A line ends before the present token. -/
def newline : Parser Bool := return (← get).newline

/-- Goes on to the next token. -/
def advance : Parser Unit := modify fun i => .ofPoint i.after

/-- Goes on from a place inside the present token or after it. -/
def resume (p : Point) : Parser Unit := set (Input.ofPoint p)

/-- The present token is the given mark. -/
def sees (s : String) : Parser Bool := return (← get).token = .symbol s

/-- The present token is the given word. -/
def seesWord (w : String) : Parser Bool := return (← get).token = .word w

/-- The present token is one of some words. -/
def seesAnyWord (ws : List String) : Parser Bool := do
  let t ← token
  return ws.any fun w => t = .word w

/-- The present token is one of some marks. -/
def seesAny (ss : List String) : Parser Bool := do
  let t ← token
  return ss.any fun s => t = .symbol s

/-- Reads the given mark if it is there. -/
def accept (s : String) : Parser Bool := do
  if ← sees s then advance; return true
  return false

/-- Reads the given word if it is there. -/
def acceptWord (w : String) : Parser Bool := do
  if ← seesWord w then advance; return true
  return false

/-- Reads the given mark. -/
def expect (s : String) : Parser Unit := do guard (← accept s)

/-- Reads the given word. -/
def expectWord (w : String) : Parser Unit := do guard (← acceptWord w)

/-! ## Control -/

/-- The result of a parser, or nothing and no step if it fails. -/
def attempt {α : Type} (p : Parser α) : Parser (Option α) := fun i =>
  match p i with
  | some (a, j) => some (some a, j)
  | none => some (none, i)

/-- A test at the token after the present one. -/
def next (p : Parser Bool) : Parser Bool := fun i =>
  match (do advance; p) i with
  | some (b, _) => some (b, i)
  | none => some (false, i)

/-- Collects results until `p` has none, in at most `limit` steps. -/
def collectFrom {α : Type} (p : Parser (Option α)) : (limit : Nat) → List α → Input →
    Option (List α × Input)
  | 0, _, _ => none
  | limit + 1, seen, i =>
    match p i with
    | none => none
    | some (none, i) => some (seen.reverse, i)
    | some (some a, i) => collectFrom p limit (a :: seen) i

/-- The results of `p`, read until it has none. -/
def collect {α : Type} (limit : Nat) (p : Parser (Option α)) : Parser (List α) :=
  collectFrom p limit []

/-! ## Nodes -/

/-- A mark at the present token. -/
def mark : Parser Mark := return ⟨(← get).start.byte, (← get).start.row⟩

/-- The node from a mark up to the last token. -/
def close (kind : String) (m : Mark) (children : List Node) : Parser Node :=
  return .mk kind.toList m.start (← get).last.byte m.row true none children

/-- Reads the present token as a node. -/
def leaf (kind : String) : Parser Node := do
  let m ← mark
  advance
  close kind m []

/-- Reads the present token as punctuation of the given kind. -/
def punctuation (kind : String) : Parser Node := do
  let i ← get
  advance
  return .mk kind.toList i.start.byte i.after.byte i.start.row false none []

/-- The last token, as punctuation before what follows. -/
def lastToken : Parser Node := do
  let i ← get
  return .mk [] i.last.byte i.last.byte i.start.row false none []

end Parser

/-- The node in a role of its parent. -/
def Node.withField (field : String) : Node → Node
  | .mk kind start stop row named _ children =>
    .mk kind start stop row named (some field.toList) children

/-- The nodes that an expression contributes to a larger one: itself, or what it holds if it is
composed. -/
def Node.parts (n : Node) : List Node := if n.is "expression" then n.children else [n]

/-- The composed expression from a mark up to the last token, over some parts. -/
def Parser.compose (m : Mark) (nodes : List Node) : Parser Node :=
  close "expression" m (nodes.flatMap (·.parts))

end CodeIndex.Script
