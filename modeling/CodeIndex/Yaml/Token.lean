import CodeIndex.Utf8
import CodeIndex.Yaml.Cursor

/-!
# Tokens of YAML documents

The tokens, and the readers of those that have content: directives, anchors, tags, and the scalars
in their five styles. Each reader starts at the first character of its token.
-/

namespace CodeIndex.Yaml

open Text Reader

/-- A token of a document. -/
inductive Token where
  /-- The version that a document asks for. -/
  | version (major : Nat)
  /-- A shorthand for the start of tags. -/
  | tagShorthand (handle start : Text)
  /-- A directive that has no meaning. -/
  | otherDirective
  | documentStart
  | documentEnd
  | blockSequenceStart
  | blockMappingStart
  | blockEnd
  | flowSequenceStart
  | flowSequenceEnd
  | flowMappingStart
  | flowMappingEnd
  | blockEntry
  | flowEntry
  | key
  | value
  | alias (name : Text)
  | anchor (name : Text)
  | tag (handle : Option Text) (suffix : Text)
  /-- A scalar; a plain one has neither quotes nor the mark of a block. -/
  | scalar (text : Text) (isPlain : Bool)
  | finish
  deriving DecidableEq, Repr

/-- A character of the name of an anchor or of a shorthand. -/
def isWordChar (c : Char) : Bool := c.isAlphanum || c = '-' || c = '_'

/-! ## Anchors and tags -/

/-- The name of an anchor or of an alias, after its mark. -/
def anchorName : Reader Text := do
  step
  let name ← takeWhile isWordChar
  require (name ≠ [])
  let next ← peek 0
  require (endsWord next || next.any fun c => (Char.ofNat 96 :: "?:,]\x7d%@".toList).contains c)
  return name

/-- The handle of a tag: marks of exclamation around a word, or a single one. -/
def tagHandle : Reader Text := do
  require (← sees '!')
  step
  if ← sees ' ' then return ['!']
  let word ← takeWhile isWordChar
  require (← sees '!')
  step
  return '!' :: word ++ ['!']

/-- A byte written as a percent sign and two hexadecimal digits, if one is there. -/
def escapedByte : Reader (Option UInt8) := do
  match (← get).rest with
  | '%' :: a :: b :: _ =>
    match hexValue? a, hexValue? b with
    | some a, some b =>
      skip 3
      return some (UInt8.ofNat (16 * a + b))
    | _, _ => throw .malformed
  | '%' :: _ => throw .malformed
  | _ => return none

/-- A character of a tag. -/
def isTagChar (c : Char) : Bool := c.isAlphanum || "-;/?:@&=+$,_.!~*'()[]".toList.contains c

/-- A part of a tag: characters, or bytes that make up characters. -/
def tagPart : Reader (Option Text) := do
  let plain ← takeWhile isTagChar
  if plain ≠ [] then return some plain
  let bytes ← collect escapedByte
  if bytes = [] then return none
  match Utf8.decode bytes with
  | .ok t => return some t
  | .error _ => throw .malformed

/-- The text of a tag, which is not empty. -/
def tagText : Reader Text := do
  let parts ← collect tagPart
  require (parts ≠ [])
  return parts.flatten

/-- A mark of exclamation stands in the text before a space or the end of the line. -/
def hasHandle (t : Text) : Bool := (t.takeWhile fun c => !endsField (some c)).any (· = '!')

/-- A tag. -/
def readTag : Reader Token := do
  let rest := (← get).rest.drop 1
  let token ←
    if rest.head? = some '<' then do
      skip 2
      let suffix ← tagText
      require (← sees '>')
      step
      pure (Token.tag none suffix)
    else if endsWord rest.head? then do
      step
      pure (Token.tag none ['!'])
    else if hasHandle rest then do
      let handle ← tagHandle
      pure (Token.tag (some handle) (← tagText))
    else do
      step
      pure (Token.tag (some ['!']) (← tagText))
  require (endsField (← peek 0))
  return token

/-! ## Directives -/

/-- A run of decimal digits. -/
def digits : Reader Nat := do
  let ds ← takeWhile (·.isDigit)
  require (ds ≠ [])
  return ds.foldl (fun n c => 10 * n + (c.toNat - 48)) 0

/-- A directive. -/
def readDirective : Reader Token := do
  step
  let name ← takeWhile isWordChar
  require (name ≠ [] && endsField (← peek 0))
  let token ←
    if name = "YAML".toList then do
      let _ ← takeWhile (· = ' ')
      let major ← digits
      require (← sees '.')
      step
      let _ ← digits
      require (endsField (← peek 0))
      pure (Token.version major)
    else if name = "TAG".toList then do
      let _ ← takeWhile (· = ' ')
      let handle ← tagHandle
      require (← sees ' ')
      let _ ← takeWhile (· = ' ')
      let start ← tagText
      require (endsField (← peek 0))
      pure (Token.tagShorthand handle start)
    else do
      let _ ← takeWhile (!isBreak ·)
      pure Token.otherDirective
  ignoredLine
  return token

/-! ## Scalars in quotes -/

/-- The line breaks after the first one inside quotes, and the blanks at the starts of their
lines. -/
def quotedBreaks : Reader Text := do
  let breaks ← collect do
    require !(← atSeparator)
    let _ ← takeWhile isSpaceOrTab
    let b ← lineBreak
    return if b = [] then none else some b
  return breaks.flatten

/-- Line breaks fold: a single one is a space, and of several the first is dropped. -/
def fold (first breaks : Text) : Text :=
  if first ≠ ['\n'] then first ++ breaks
  else if breaks = [] then [' ']
  else breaks

/-- Blanks and line breaks inside quotes. -/
def quotedBlanks : Reader Text := do
  let blanks ← takeWhile isSpaceOrTab
  require (← peek 0).isSome
  let first ← lineBreak
  if first = [] then return blanks
  return fold first (← quotedBreaks)

/-- The character that a letter after a backslash stands for. -/
def letterEscape? : Char → Option Char
  | '0' => some '\x00'
  | 'a' => some '\x07'
  | 'b' => some '\x08'
  | 't' | '\t' => some '\t'
  | 'n' => some '\n'
  | 'v' => some '\x0b'
  | 'f' => some '\x0c'
  | 'r' => some '\r'
  | 'e' => some '\x1b'
  | ' ' => some ' '
  | '"' => some '"'
  | '\\' => some '\\'
  | '/' => some '/'
  | 'N' => some '\x85'
  | '_' => some '\xa0'
  | 'L' => some '\u2028'
  | 'P' => some '\u2029'
  | _ => none

/-- The number of hexadecimal digits after a letter of an escape. -/
def escapeWidth? : Char → Option Nat
  | 'x' => some 2
  | 'u' => some 4
  | 'U' => some 8
  | _ => none

/-- The number that some hexadecimal digits write. -/
def hexNumber? (t : Text) : Option Nat :=
  t.foldlM (fun n c => (hexValue? c).map fun d => 16 * n + d) 0

/-- An escape in double quotes. -/
def readEscape : Reader Text := do
  step
  let c ← match ← peek 0 with
    | some c => pure c
    | none => throw .malformed
  if let some ch := letterEscape? c then
    step
    return [ch]
  if let some width := escapeWidth? c then
    step
    let ds := (← get).rest.take width
    match hexNumber? ds with
    | none => throw .malformed
    | some n =>
      require (ds.length = width)
      skip width
      if n ≥ 0x110000 then throw .noSuchCharacter
      return [Char.ofNat n]
  let b ← lineBreak
  require (b ≠ [])
  quotedBreaks

/-- A part of a scalar in quotes, or nothing at the closing quote. -/
def quotedPart (quote : Char) : Reader (Option Text) := do
  match (← get).rest with
  | [] => throw .malformed
  | c :: t =>
    if c = quote then
      if quote = '\'' && t.head? = some '\'' then
        skip 2
        return some ['\'']
      return none
    if c = '\\' && quote = '"' then return some (← readEscape)
    if isSpaceOrTab c || isBreak c then return some (← quotedBlanks)
    return some (← takeWhile fun c =>
      !(c = quote || (c = '\\' && quote = '"') || isSpaceOrTab c || isBreak c))

/-- A scalar in quotes. -/
def readQuoted (quote : Char) : Reader Token := do
  step
  let parts ← collect (quotedPart quote)
  step
  return .scalar parts.flatten false

/-! ## Plain scalars -/

/-- A mark of the flow style. -/
def isFlowMark (c : Char) : Bool := c = ',' || c = '[' || c = ']' || c = '\x7b' || c = '\x7d'

/-- The characters of a plain scalar up to a blank, or up to a mark that ends it. -/
def plainRun (inFlow : Bool) : Text → Text
  | [] => []
  | c :: t =>
    if endsWord (some c) then []
    else if c = ':' && (endsWord t.head? || (inFlow && t.head?.any isFlowMark)) then []
    else if inFlow && (isFlowMark c || c = '?') then []
    else c :: plainRun inFlow t

/-- What stands between two lines of a plain scalar, or nothing where documents are separated. -/
def plainBreaks : Reader (Option Text) := do
  if ← atSeparator then return none
  let breaks ← collect do
    let _ ← takeWhile (· = ' ')
    let b ← lineBreak
    if b = [] then return none
    if ← atSeparator then return some none
    return some (some b)
  if breaks.any (·.isNone) then return none
  return some (breaks.filterMap id).flatten

/-- The blanks after a run of a plain scalar as they are folded, and whether a line ends among
them. -/
def plainBlanks : Reader (Text × Bool) := do
  let blanks ← takeWhile (· = ' ')
  let first ← lineBreak
  if first = [] then return (blanks, false)
  match ← plainBreaks with
  | none => return ([], true)
  | some breaks => return (fold first breaks, true)

/-- A plain scalar after the parts `seen`, in reverse. The last blanks are not part of it, but it
matters whether a line ends among them. -/
def plainFrom (inFlow : Bool) (indent : Int) :
    (limit : Nat) → (seen : List Text) → (blanks : Text) → (atBreak : Bool) → Reader (Text × Bool)
  | 0, _, _, _ => throw .malformed
  | limit + 1, seen, blanks, atBreak => do
    let rest := (← get).rest
    let run := if rest.head? = some '#' then [] else plainRun inFlow rest
    if run = [] then return (seen.reverse.flatten, atBreak)
    skip run.length
    let seen := run :: blanks :: seen
    let (blanks, atBreak) ← plainBlanks
    let outside := !inFlow && ((← get).column : Int) < indent
    if blanks = [] || (← sees '#') || outside then return (seen.reverse.flatten, atBreak)
    plainFrom inFlow indent limit seen blanks atBreak

/-- A plain scalar, and whether a line ends among the blanks after it. Its lines are indented by
more than `indent`. -/
def readPlain (inFlow : Bool) (indent : Int) : Reader (Token × Bool) := do
  let (t, atBreak) ← plainFrom inFlow (indent + 1) (← get).limit [] [] false
  return (.scalar t true, atBreak)

/-! ## Block scalars -/

/-- What becomes of the line breaks at the end of a block scalar. -/
inductive Chomping where
  /-- All are dropped. -/
  | strip
  /-- One is kept. -/
  | clip
  /-- All are kept. -/
  | keep
  deriving DecidableEq

/-- The mark for the line breaks at the end, if there is one. -/
def chompingMark : Reader (Option Chomping) := do
  if ← sees '+' then step; return some .keep
  if ← sees '-' then step; return some .strip
  return none

/-- The mark for the indentation, if there is one. -/
def indentMark : Reader (Option Nat) := do
  match ← peek 0 with
  | some c =>
    unless c.isDigit do return none
    require (c ≠ '0')
    step
    return some (c.toNat - 48)
  | none => return none

/-- The two marks after the first character of a block scalar, in either order. -/
def blockMarks : Reader (Chomping × Option Nat) := do
  let first ← chompingMark
  let indent ← indentMark
  let second ← if first.isNone && indent.isSome then chompingMark else pure none
  require (endsField (← peek 0))
  return ((first.or second).getD .clip, indent)

/-- Spaces up to a column. -/
def skipIndent (indent : Nat) : Reader Unit := do
  let n := indent - (← get).column
  skip (((← get).rest.takeWhile (· = ' ')).take n).length

/-- The empty lines before a line of a block scalar. -/
def blockBreaks (indent : Nat) : Reader Text := do
  skipIndent indent
  let breaks ← collect do
    let b ← lineBreak
    if b = [] then return none
    skipIndent indent
    return some b
  return breaks.flatten

/-- The empty lines before the first line of a block scalar, and the greatest column among them. -/
def blockIndentation : Reader (Text × Nat) := do
  let parts ← collect do
    match ← peek 0 with
    | some c =>
      if c = ' ' then
        step
        return some ([], (← get).column)
      let b ← lineBreak
      return if b = [] then none else some (b, 0)
    | none => return none
  return ((parts.map (·.1)).flatten, (parts.map (·.2)).foldl max 0)

/-- The lines of a block scalar after the parts `seen`, in reverse: all of them, the break after the
last line, and the empty lines at the end. -/
def blockFrom (folded : Bool) (indent : Nat) :
    (limit : Nat) → (seen : List Text) → (breaks : Text) → Reader (Text × Text × Text)
  | 0, _, _ => throw .malformed
  | limit + 1, seen, breaks => do
    let isText (c : Option Char) : Bool := c ≠ some ' ' && c ≠ some '\t'
    let startsText := isText (← peek 0)
    let line ← takeWhile (!isBreak ·)
    let last ← lineBreak
    let seen := line :: breaks :: seen
    let breaks ← blockBreaks indent
    let next ← peek 0
    if (← get).column = indent && next.isSome then
      let joint := if folded && last = ['\n'] && startsText && isText next
        then (if breaks = [] then [' '] else []) else last
      blockFrom folded indent limit (joint :: seen) breaks
    else return (seen.reverse.flatten, last, breaks)

/-- A block scalar. Its lines are indented by more than `indent`. -/
def readBlock (folded : Bool) (indent : Int) : Reader Token := do
  step
  let (chomping, mark) ← blockMarks
  ignoredLine
  let least := (indent + 1).toNat.max 1
  let (breaks, indent) ← match mark with
    | some n => do
      let indent := least + n - 1
      pure (← blockBreaks indent, indent)
    | none => do
      let (breaks, column) ← blockIndentation
      pure (breaks, least.max column)
  let (text, last, breaks) ←
    if (← get).column = indent && (← peek 0).isSome then
      blockFrom folded indent (← get).limit [] breaks
    else pure ([], [], breaks)
  let tail := match chomping with
    | .strip => []
    | .clip => last
    | .keep => last ++ breaks
  return .scalar (text ++ tail) false

end CodeIndex.Yaml
