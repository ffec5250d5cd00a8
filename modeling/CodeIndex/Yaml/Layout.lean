import CodeIndex.Yaml.Token

/-!
# The layout of YAML documents

Block collections are told by indentation, and the keys of mappings only by the colon after them.
`tokens` reads a document into tokens in which the layout is explicit: each block collection stands
between a start and an end, and each key comes after a `key` token.

A token that may turn out to be a key is remembered (`Candidate`); when its colon comes, the `key`
token is put in front of it. A candidate is given up at the end of its line, or after 1024
characters.
-/

namespace CodeIndex.Yaml

open Reader

/-- A place in the token sequence where a key may start. -/
structure Candidate where
  /-- The depth of flow collections around it. -/
  flow : Nat
  /-- The number of tokens before it. -/
  position : Nat
  /-- It stands where only a key can stand. -/
  required : Bool
  index : Nat
  line : Nat
  column : Nat

/-- What the layout knows so far. -/
structure Layout where
  cursor : Cursor
  tokens : Array Token := #[]
  /-- The column of the innermost block collection, or -1. -/
  indent : Int := -1
  /-- The columns of the block collections around it. -/
  outer : List Int := []
  /-- The depth of flow collections. -/
  flow : Nat := 0
  /-- A key may start at the cursor. -/
  keyAllowed : Bool := true
  candidates : List Candidate := []

/-- A computation on the layout. -/
abbrev Scanner := StateT Layout (Except Fault)

namespace Scanner

/-- Reads at the cursor. -/
def read {α : Type} (r : Reader α) : Scanner α := do
  let s ← get
  let (a, cursor) ← (r.run s.cursor : Except Fault (α × Cursor))
  set { s with cursor }
  return a

/-- Adds a token. -/
def emit (t : Token) : Scanner Unit := modify fun s => { s with tokens := s.tokens.push t }

/-- Says whether a key may start at the cursor. -/
def allowKey (b : Bool) : Scanner Unit := modify fun s => { s with keyAllowed := b }

/-- Ends the block collections that stand further to the right than a column. -/
def unindentFrom (column : Int) : (outer : List Int) → Scanner Unit
  | [] => pure ()
  | above :: outer => do
    if (← get).indent > column then
      modify fun s => { s with indent := above, outer, tokens := s.tokens.push .blockEnd }
      unindentFrom column outer

/-- Ends the block collections that stand further to the right than a column, outside of flow
collections. -/
def unindent (column : Int) : Scanner Unit := do
  let s ← get
  if s.flow = 0 then unindentFrom column s.outer

/-- Starts a block collection at a column, if that is further to the right than the innermost
one. -/
def indentTo (column : Nat) : Scanner Bool := do
  let s ← get
  if s.indent < column then
    set { s with indent := column, outer := s.indent :: s.outer }
    return true
  return false

/-! ## Candidates for keys -/

/-- Gives up the candidates that a test selects; one that had to be a key is a fault. -/
def giveUp (test : Candidate → Bool) : Scanner Unit := do
  let s ← get
  if s.candidates.any fun k => test k && k.required then throw .malformed
  set { s with candidates := s.candidates.filter (!test ·) }

/-- Gives up the candidates that are too far back. -/
def giveUpStale : Scanner Unit := do
  let c := (← get).cursor
  giveUp fun k => k.line ≠ c.line || c.index - k.index > 1024

/-- Gives up the candidate at the present depth. -/
def giveUpHere : Scanner Unit := do
  let flow := (← get).flow
  giveUp (·.flow = flow)

/-- Remembers that the next token may be a key. -/
def saveCandidate : Scanner Unit := do
  if (← get).keyAllowed then
    giveUpHere
    modify fun s => { s with candidates :=
      { flow := s.flow, position := s.tokens.size,
        required := s.flow = 0 && s.indent = s.cursor.column, index := s.cursor.index,
        line := s.cursor.line, column := s.cursor.column } :: s.candidates }

/-! ## Tokens one by one -/

/-- A token that can be a key by itself. -/
def contentToken (r : Reader Token) : Scanner Unit := do
  saveCandidate
  allowKey false
  emit (← read r)

/-- A token that separates documents, or a directive. -/
def documentToken (r : Reader Token) : Scanner Unit := do
  unindent (-1)
  giveUpHere
  allowKey false
  emit (← read r)

/-- The start of a flow collection. -/
def flowStart (t : Token) : Scanner Unit := do
  saveCandidate
  modify fun s => { s with flow := s.flow + 1, keyAllowed := true }
  read step
  emit t

/-- The end of a flow collection. -/
def flowEnd (t : Token) : Scanner Unit := do
  giveUpHere
  if (← get).flow = 0 then throw .malformed
  modify fun s => { s with flow := s.flow - 1, keyAllowed := false }
  read step
  emit t

/-- A comma between the entries of a flow collection. -/
def flowSeparator : Scanner Unit := do
  allowKey true
  giveUpHere
  read step
  emit .flowEntry

/-- A mark at which a block collection may start. -/
def blockMark (start mark : Token) : Scanner Unit := do
  if (← get).flow = 0 then
    unless (← get).keyAllowed do throw .malformed
    if ← indentTo (← get).cursor.column then emit start
  giveUpHere
  read step
  emit mark

/-- A dash before an entry of a block sequence. -/
def entryMark : Scanner Unit := do
  blockMark .blockSequenceStart .blockEntry
  allowKey true

/-- A question mark before a key. -/
def keyMark : Scanner Unit := do
  blockMark .blockMappingStart .key
  allowKey ((← get).flow = 0)

/-- A colon before a value. The candidate at the present depth becomes a key. -/
def valueMark : Scanner Unit := do
  let s ← get
  match s.candidates.find? (·.flow = s.flow) with
  | some k =>
    set { s with candidates := s.candidates.filter (·.flow ≠ s.flow), keyAllowed := false }
    let starts ← if s.flow = 0 then indentTo k.column else pure false
    let added := if starts then #[Token.blockMappingStart, .key] else #[.key]
    modify fun s => { s with
      tokens :=
        s.tokens.extract 0 k.position ++ added ++ s.tokens.extract k.position s.tokens.size }
    read step
    emit .value
  | none =>
    blockMark .blockMappingStart .value
    allowKey (s.flow = 0)

/-- A plain scalar. -/
def plainToken : Scanner Unit := do
  saveCandidate
  let s ← get
  let (t, atBreak) ← read (readPlain (s.flow ≠ 0) s.indent)
  allowKey atBreak
  emit t

/-- A block scalar. -/
def blockToken (folded : Bool) : Scanner Unit := do
  allowKey true
  giveUpHere
  let indent := (← get).indent
  emit (← read (readBlock folded indent))

/-- Skips one run of spaces and a comment, and the end of the line if it comes next. -/
def skipLine : Scanner (Option Unit) := do
  let ended ← read do
    let _ ← takeWhile (· = ' ')
    if ← sees '#' then let _ ← takeWhile (!isBreak ·)
    return !(← lineBreak).isEmpty
  unless ended do return none
  if (← get).flow = 0 then allowKey true
  return some ()

/-- Skips spaces, comments and line ends. -/
def skipLines : Nat → Scanner Unit
  | 0 => throw .malformed
  | n + 1 => do
    if (← skipLine).isSome then skipLines n

/-- A plain scalar can start with a character, before the next one. -/
def startsPlain (inFlow : Bool) (c : Char) (next : Option Char) : Bool :=
  !(endsWord (some c) || (Char.ofNat 96 :: "-?:,[]\x7b\x7d#&*!|>'\"%@".toList).contains c) ||
    (!endsWord next && (c = '-' || (!inFlow && (c = '?' || c = ':'))))

/-- Reads the next token, or finds the end. -/
def nextToken : Scanner Bool := do
  let s ← get
  if s.cursor.index = 0 then read do if ← sees '\ufeff' then step
  skipLines s.cursor.limit
  giveUpStale
  unindent (← get).cursor.column
  let s ← get
  let inFlow : Bool := s.flow ≠ 0
  match s.cursor.rest with
  | [] =>
    unindent (-1)
    giveUpHere
    emit .finish
    return true
  | c :: t =>
    let next := t.head?
    let atMargin := s.cursor.column = 0
    if c = '%' && atMargin then documentToken readDirective
    else if c = '-' && atMargin && Text.startsWith ['-', '-'] t && endsWord t[2]? then
      documentToken do skip 3; return .documentStart
    else if c = '.' && atMargin && Text.startsWith ['.', '.'] t && endsWord t[2]? then
      documentToken do skip 3; return .documentEnd
    else if c = '[' then flowStart .flowSequenceStart
    else if c = '\x7b' then flowStart .flowMappingStart
    else if c = ']' then flowEnd .flowSequenceEnd
    else if c = '\x7d' then flowEnd .flowMappingEnd
    else if c = ',' then flowSeparator
    else if c = '-' && endsWord next then entryMark
    else if c = '?' && (inFlow || endsWord next) then keyMark
    else if c = ':' && (inFlow || endsWord next) then valueMark
    else if c = '*' then contentToken do return .alias (← anchorName)
    else if c = '&' then contentToken do return .anchor (← anchorName)
    else if c = '!' then contentToken readTag
    else if c = '|' && !inFlow then blockToken false
    else if c = '>' && !inFlow then blockToken true
    else if c = '\'' || c = '"' then contentToken (readQuoted c)
    else if startsPlain inFlow c next then plainToken
    else throw .malformed
    return false

/-- Reads tokens up to the end. -/
def allTokens : Nat → Scanner Unit
  | 0 => throw .malformed
  | n + 1 => do
    unless ← nextToken do allTokens n

end Scanner

/-- A character that may stand in a document. -/
def isAllowed (c : Char) : Bool :=
  let n := c.toNat
  n = 9 || n = 10 || n = 13 || (32 ≤ n && n ≤ 0x7E) || n = 0x85 || (0xA0 ≤ n && n ≤ 0xFFFD) ||
    0x10000 ≤ n

/-- The tokens of a document. -/
def tokens (document : Text) : Except Fault (List Token) := do
  unless document.all isAllowed do throw .malformed
  let limit := document.length + 2
  let ((), s) ← (Scanner.allTokens (2 * limit)).run { cursor := { rest := document, limit } }
  return s.tokens.toList

end CodeIndex.Yaml
