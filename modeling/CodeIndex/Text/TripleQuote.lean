import CodeIndex.Text.Blank

/-!
# Triple-quoted strings across lines

`StringTracker` follows triple-quoted strings from line to line. It is closed, or open with the
delimiter that opened the string. `feed` tells whether a line belongs to a string, and keeps the
text of the string completed last, joined with single spaces, until it is taken.
-/

namespace CodeIndex.Text

/-- The two delimiters of triple-quoted strings. -/
inductive Delimiter where
  /-- Three double quotes. -/
  | double
  /-- Three single quotes. -/
  | single
  deriving DecidableEq, Repr

/-- The characters of a delimiter. -/
def Delimiter.chars : Delimiter → Text
  | .double => ['"', '"', '"']
  | .single => ['\'', '\'', '\'']

/-- The text before the first delimiter, the delimiter, and the text after it; `seen` is what was
passed, in reverse. -/
def cutDelimiterFrom? : (seen : Text) → Text → Option (Text × Delimiter × Text)
  | _, [] => none
  | seen, '"' :: '"' :: '"' :: t => some (seen.reverse, .double, t)
  | seen, '\'' :: '\'' :: '\'' :: t => some (seen.reverse, .single, t)
  | seen, c :: t => cutDelimiterFrom? (c :: seen) t

/-- The text before the first delimiter, the delimiter, and the text after it. -/
def cutDelimiter? (t : Text) : Option (Text × Delimiter × Text) := cutDelimiterFrom? [] t

/-- The position of the first delimiter. -/
def findDelimiter? (t : Text) : Option Nat := (cutDelimiter? t).map (·.1.length)

/-- The state of the tracker: the delimiter of the open string, the parts of the open string read so
far, the last one first, and the text of the string completed last. -/
structure StringTracker where
  quote : Option Delimiter := none
  parts : List Text := []
  completed : Option Text := none
  deriving DecidableEq, Repr

namespace StringTracker

/-- A string is open. -/
def isOpen (s : StringTracker) : Bool := s.quote.isSome

/-- The non-empty parts with single spaces between them. -/
def joinParts (parts : List Text) : Text := trim (join [' '] (parts.reverse.filter (· ≠ [])))

/-- One more line: whether it belongs to a string, and the new state. -/
def feed (s : StringTracker) (line : Text) : Bool × StringTracker :=
  match s.quote with
  | some q =>
    match cut? q.chars line with
    | some (head, _) =>
      (true, { quote := none, parts := [], completed := some (joinParts (trim head :: s.parts)) })
    | none => (true, { s with parts := trim line :: s.parts })
  | none =>
    match cutDelimiter? line with
    | none => (false, s)
    | some (_, q, tail) =>
      match cut? q.chars tail with
      | some (body, _) => (true, { s with completed := some (trim body) })
      | none => (true, { s with quote := some q, parts := [trim tail] })

/-- The text of the string completed last, which is forgotten. -/
def takeCompleted (s : StringTracker) : Option Text × StringTracker :=
  (s.completed, { s with completed := none })

end StringTracker

end CodeIndex.Text
