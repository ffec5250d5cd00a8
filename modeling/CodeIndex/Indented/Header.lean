import CodeIndex.Text.Blank
import CodeIndex.Text.TripleQuote
import CodeIndex.Text.Word

/-!
# Lines of an indented source

Recognisers for the single lines that the outline of a source with indented blocks is made of: class
headers, `def` headers, attributes in a class body, and import lines. Each reads from the start of
the line and is determined by the first characters it meets, so none of them has to go back.
-/

namespace CodeIndex.Indented

open Text

/-- The number of blanks at the start of a line. -/
def indentation (line : Text) : Nat := line.length - (trimLeft line).length

/-- The name of the class whose header starts at the left margin of the line: `class`, the name, and
an opening parenthesis or a colon. -/
def classHeader? (line : Text) : Option Text := do
  let rest ← blanks1? (← after? "class".toList line)
  let (name, rest) ← word? rest
  match trimLeft rest with
  | c :: _ => if c = '(' ∨ c = ':' then some name else none
  | [] => none

/-- The header of a function: its name, whether it is asynchronous, and the line from the
parenthesis that opens its parameters. -/
structure DefHeader where
  isAsync : Bool
  name : Text
  call : Text
  deriving DecidableEq, Repr

/-- The header of a function, at any indentation. -/
def defHeader? (line : Text) : Option DefHeader := do
  let start := trimLeft line
  let plain := (after? "async".toList start).bind blanks1?
  let rest ← blanks1? (← after? "def".toList (plain.getD start))
  let (name, rest) ← word? rest
  match trimLeft rest with
  | '(' :: call => some ⟨plain.isSome, name, '(' :: call⟩
  | _ => none

/-- The line starts a function or a class, whatever follows. -/
def isHeaderLine (line : Text) : Bool :=
  let start := trimLeft line
  let plain := ((after? "async".toList start).bind blanks1?).bind (after? "def".toList)
  [plain, after? "def".toList start, after? "class".toList start].any fun rest =>
    (rest.bind blanks1?).isSome

/-- What follows `Column(` from its parenthesis on, when the text starts with it, perhaps after a
namespace and a dot. -/
def columnCall? (names : List Text) (t : Text) : Option Text :=
  let bare := match word? t with
    | some (_, '.' :: rest) => rest
    | _ => t
  names.findSome? fun n =>
    match after? n bare with
    | some ('(' :: call) => some ('(' :: call)
    | _ => none

/-- An attribute whose value is a `Column(...)` call: its name, and the line from the parenthesis
that opens the call. -/
def columnAttribute? (line : Text) : Option (Text × Text) := do
  let (name, rest) ← word? (← blanks1? line)
  let rest ← after? ['='] (trimLeft rest)
  let call ← columnCall? ["Column".toList] (trimLeft rest)
  return (name, call)

/-- An attribute with a type: its name, and the text between the colon and the first equals sign.
There has to be something after the colon. -/
def typedAttribute? (line : Text) : Option (Text × Text) := do
  let (name, rest) ← word? (← blanks1? line)
  match ← after? [':'] (trimLeft rest) with
  | [] => none
  | rest => some (name, trim (before ['='] rest))

/-- An import line: the module after `from`, if any, and the text after `import`, which is not
empty. -/
def importLine? (line : Text) : Option (Option Text × Text) := do
  let (module?, rest) ←
    match (after? "from".toList line).bind blanks1? with
    | none => some (none, line)
    | some rest =>
      match rest.span (!isBlank ·) with
      | ([], _) => none
      | (m, rest) => (blanks1? rest).map fun rest => (some m, rest)
  match ← after? "import".toList rest with
  | c :: d :: names => if isBlank c then some (module?, d :: names) else none
  | _ => none

/-- The text after an arrow up to the first colon that is not its first character, at the start of
the text. With no such colon, a blank right before a colon is the whole annotation. -/
def returnAnnotation? (t : Text) : Option Text := do
  let rest ← after? "->".toList (trimLeft t)
  let (gap, body) := rest.span isBlank
  match body with
  | [] => none
  | c :: body =>
    match cut? [':'] body with
    | some (tail, _) => some (trimRight (c :: tail))
    | none => if c = ':' then gap.getLast?.map ([·]) else none

/-- A header line cut before a string that starts on it after a colon: the header, and the string
from its delimiter on, which is empty if there is none. -/
def splitHeaderString (line : Text) : Text × Text :=
  match cutDelimiter? line with
  | some (c :: head, q, tail) =>
    if endsWithChar ':' (trimRight (c :: head)) &&
        ((classHeader? (c :: head)).isSome || (defHeader? (c :: head)).isSome) then
      (c :: head, q.chars ++ tail)
    else (line, [])
  | _ => (line, [])

end CodeIndex.Indented
