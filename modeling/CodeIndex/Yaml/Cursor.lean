import CodeIndex.Text.Blank

/-!
# Places in a YAML document

A document is read character by character. `Cursor` is a place in it with its line and its column,
which decide how the document is laid out, and `Reader` is a computation that moves a cursor and may
find a fault.
-/

namespace CodeIndex.Yaml

open Text

/-- What may be wrong with a document. -/
inductive Fault where
  /-- The text is no document, or a part of it has a tag that it does not fit. -/
  | malformed
  /-- A text is tagged as an integer and is none in the given base. -/
  | notInteger (base : Nat) (text : Text)
  /-- An integer has too many digits. -/
  | tooManyDigits (count : Nat)
  /-- A text is tagged as a floating-point number and is none. -/
  | notFloat (text : Text)
  /-- An empty text is tagged as a number. -/
  | emptyNumber
  /-- A text is tagged as a truth value and is none. -/
  | notBool (text : Text)
  /-- A text is tagged as a time and is none. -/
  | notTime
  /-- A date or a time does not exist, for the reason in words. -/
  | noSuchTime (reason : Text)
  /-- An escape names no character. -/
  | noSuchCharacter
  deriving DecidableEq, Repr

/-- A place in a document. -/
structure Cursor where
  rest : Text
  index : Nat := 0
  line : Nat := 0
  column : Nat := 0
  /-- A bound on the number of steps that any part of the reading takes. -/
  limit : Nat

/-- A character that ends a line. -/
def isBreak (c : Char) : Bool :=
  c = '\n' || c = '\r' || c = '\x85' || c = '\u2028' || c = '\u2029'

/-- Nothing, or a character that ends a line. -/
def endsLine (c : Option Char) : Bool := c.all isBreak

/-- Nothing, a space, or a character that ends a line. -/
def endsField (c : Option Char) : Bool := c.all fun c => c = ' ' || isBreak c

/-- Nothing, a space, a tab, or a character that ends a line. -/
def endsWord (c : Option Char) : Bool := c.all fun c => c = ' ' || c = '\t' || isBreak c

/-- The cursor after one character. A byte-order mark takes no column. -/
def Cursor.step (c : Cursor) : Cursor :=
  match c.rest with
  | [] => c
  | ch :: rest =>
    if ch = '\r' && rest.head? = some '\n' then
      { c with rest, index := c.index + 1, column := c.column + 1 }
    else if isBreak ch then { c with rest, index := c.index + 1, line := c.line + 1, column := 0 }
    else
      { c with rest, index := c.index + 1,
               column := if ch = '\ufeff' then c.column else c.column + 1 }

/-- A computation that reads from a cursor. -/
abbrev Reader := StateT Cursor (Except Fault)

namespace Reader

/-- The character `n` places further on. -/
def peek (n : Nat) : Reader (Option Char) := return (← get).rest[n]?

/-- The next character is the given one. -/
def sees (ch : Char) : Reader Bool := return (← get).rest.head? = some ch

/-- Moves on by one character. -/
def step : Reader Unit := modify Cursor.step

/-- Moves on by some characters. -/
def skip : Nat → Reader Unit
  | 0 => pure ()
  | n + 1 => do step; skip n

/-- Collects results until `p` has none. -/
def collectFrom {α : Type} (p : Reader (Option α)) : (limit : Nat) → List α → Reader (List α)
  | 0, _ => throw .malformed
  | limit + 1, seen => do
    match ← p with
    | none => return seen.reverse
    | some a => collectFrom p limit (a :: seen)

/-- The results of `p`, read until it has none. -/
def collect {α : Type} (p : Reader (Option α)) : Reader (List α) := do
  collectFrom p (← get).limit []

/-- The characters of a class at the cursor. -/
def takeWhile (keep : Char → Bool) : Reader Text := do
  let t := (← get).rest.takeWhile keep
  skip t.length
  return t

/-- Fails unless the condition holds. -/
def require (b : Bool) : Reader Unit := unless b do throw .malformed

/-- The end of a line, if the cursor is at one: a line feed, unless it is one of the two separators
of lines and paragraphs. -/
def lineBreak : Reader Text := do
  match (← get).rest with
  | '\r' :: '\n' :: _ => skip 2; return ['\n']
  | c :: _ =>
    if c = '\u2028' || c = '\u2029' then step; return [c]
    if isBreak c then step; return ['\n']
    return []
  | [] => return []

/-- The cursor is at a line that separates documents. -/
def atSeparator : Reader Bool := do
  match (← get).rest with
  | '-' :: '-' :: '-' :: t | '.' :: '.' :: '.' :: t => return endsWord t.head?
  | _ => return false

/-- Skips spaces and a comment up to the end of the line, which must come next. -/
def ignoredLine : Reader Unit := do
  let _ ← takeWhile (· = ' ')
  if ← sees '#' then let _ ← takeWhile (!isBreak ·)
  require (endsLine (← peek 0))
  let _ ← lineBreak

end Reader

end CodeIndex.Yaml
