import CodeIndex.Text.Blank

/-!
# Brackets

* `captureBalanced` reads from an opening bracket to the closing one that matches it.
* `Balancer` collects chunks until the parentheses seen so far balance again.
* `splitTopLevel` cuts a text at the separators that stand outside brackets and quotes;
  `topLevelPieces` are the raw pieces, which lose nothing.
-/

namespace CodeIndex.Text

/-- The shortest part at the head of the text after which the brackets balance at a closing bracket,
when `depth` of them are open already; the whole text if there is none. `seen` is what was read, in
reverse. -/
def captureFrom (opening closing : Char) : (depth : Int) → (seen : Text) → Text → Text
  | _, seen, [] => seen.reverse
  | depth, seen, c :: t =>
    if c = opening then captureFrom opening closing (depth + 1) (c :: seen) t
    else if c = closing then
      if depth - 1 = 0 then (c :: seen).reverse
      else captureFrom opening closing (depth - 1) (c :: seen) t
    else captureFrom opening closing depth (c :: seen) t

/-- The text from an opening bracket at its head to the matching closing one, or all of it. -/
def captureBalanced (opening closing : Char) (t : Text) : Text := captureFrom opening closing 0 [] t

/-- The text in parentheses at the head of a text. -/
def captureCall (t : Text) : Text := captureBalanced '(' ')' t

/-- The text between the parentheses of a call, which may lack the closing one. -/
def callArguments (call : Text) : Text :=
  if endsWithChar ')' call then call.tail.dropLast else call.tail

/-! ## Balancing chunks -/

/-- Chunks collected so far, trimmed, the last one first; the number of open parentheses; and
whether one was opened at all. -/
structure Balancer where
  depth : Int := 0
  chunks : List Text := []
  seenOpen : Bool := false
  deriving DecidableEq, Repr

namespace Balancer

/-- One more character. -/
def count (b : Balancer) (c : Char) : Balancer :=
  if c = '(' then { b with depth := b.depth + 1, seenOpen := true }
  else if c = ')' then { b with depth := b.depth - 1 }
  else b

/-- One more chunk. -/
def feed (b : Balancer) (chunk : Text) : Balancer :=
  chunk.foldl count { b with chunks := trim chunk :: b.chunks }

/-- A parenthesis was opened, and none is open. -/
def isDone (b : Balancer) : Bool := b.seenOpen && b.depth ≤ 0

/-- The trimmed chunks with single spaces between them. -/
def text (b : Balancer) : Text := join [' '] b.chunks.reverse

end Balancer

/-! ## Splitting at the top level -/

/-- The pieces of the text between the separators outside brackets and quotes, when `depth` brackets
and perhaps a quote are open and `piece` has been read of the current piece, in reverse. -/
def piecesFrom (sep : Text) : (depth : Int) → (quote : Option Char) → (piece : Text) → Text →
    List Text
  | _, _, piece, [] => [piece.reverse]
  | depth, some q, piece, c :: t =>
    piecesFrom sep depth (if c = q then none else some q) (c :: piece) t
  | depth, none, piece, c :: t =>
    if c = '"' ∨ c = '\'' then piecesFrom sep depth (some c) (c :: piece) t
    else if c = '(' ∨ c = '[' ∨ c = '\x7b' then piecesFrom sep (depth + 1) none (c :: piece) t
    else if c = ')' ∨ c = ']' ∨ c = '\x7d' then piecesFrom sep (depth - 1) none (c :: piece) t
    else if sep = [c] ∧ depth = 0 then piece.reverse :: piecesFrom sep depth none [] t
    else piecesFrom sep depth none (c :: piece) t

/-- The pieces of a text between the separators outside brackets and quotes. A quote closes at the
next same character; only a separator of one character, neither quote nor bracket, cuts. -/
def topLevelPieces (sep t : Text) : List Text := piecesFrom sep 0 none [] t

/-- The trimmed pieces of a text between the top-level separators, without the empty ones. -/
def splitTopLevel (sep t : Text) : List Text :=
  ((topLevelPieces sep t).map trim).filter (· ≠ [])

/-- The arguments of a call, between its commas at the top level. -/
def arguments (t : Text) : List Text := splitTopLevel [','] t

end CodeIndex.Text
