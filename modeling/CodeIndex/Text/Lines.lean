import CodeIndex.Text.Blank

/-!
# Lines of a text

* `lines t` are the lines of `t` between its line boundaries, which belong to no line; a boundary at
  the very end opens no further line.
* `lineOf t i` is the number of the line at a position, `lineOffset t n` where a line starts. They
  count line feeds only.
-/

namespace CodeIndex.Text

/-- The lines of a text, after the finished lines `done` (the last one first) and the part `line` of
the current one, in reverse. -/
def linesFrom : (done : List Text) → (line : Text) → Text → List Text
  | done, line, [] => (if line = [] then done else line.reverse :: done).reverse
  | done, line, '\r' :: '\n' :: t => linesFrom (line.reverse :: done) [] t
  | done, line, c :: t =>
    if isLineBoundary c then linesFrom (line.reverse :: done) [] t else linesFrom done (c :: line) t

/-- The lines of a text. -/
def lines (t : Text) : List Text := linesFrom [] [] t

/-- The number of the line, from 1, on which the character at a position stands. -/
def lineOf (t : Text) (pos : Nat) : Nat := (t.take pos).count '\n' + 1

/-- The position at which the line `n` lines further down starts, for a text that starts at `pos`;
the end of the text when there are fewer lines. -/
def lineStart : (n : Nat) → (pos : Nat) → Text → Nat
  | 0, pos, _ => pos
  | _ + 1, pos, [] => pos
  | n + 1, pos, c :: t =>
    if c = '\n' then lineStart n (pos + 1) t else lineStart (n + 1) (pos + 1) t

/-- The position at which a line, numbered from 1, starts. Lines before the first start at 0, lines
beyond the last at the end of the text. -/
def lineOffset (t : Text) (line : Int) : Nat := lineStart (line - 1).toNat 0 t

/-- Line ends of every convention written as line feeds; `done` is what was read, in reverse. -/
def normalizeLineEndsFrom : (done : Text) → Text → Text
  | done, [] => done.reverse
  | done, '\r' :: '\n' :: t => normalizeLineEndsFrom ('\n' :: done) t
  | done, '\r' :: t => normalizeLineEndsFrom ('\n' :: done) t
  | done, c :: t => normalizeLineEndsFrom (c :: done) t

/-- A carriage return, with the line feed after it if there is one, becomes a line feed. -/
def normalizeLineEnds (t : Text) : Text := normalizeLineEndsFrom [] t

end CodeIndex.Text
