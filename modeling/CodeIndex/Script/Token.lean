import CodeIndex.Text.Basic

/-!
# Tokens of scripts

A script is read token by token. Blanks and comments between tokens are skipped (`skipTrivia`), and
whether a line ends among them is kept, since a line end may stand for a semicolon.

* `Point` is a place in the source: what is left, and the byte and the row there.
* `Point.run` moves on by an automaton over characters; the literals are given by such automata.
* `Point.lex` reads one token. Angle brackets are always single tokens, because they also delimit
  types and elements; a slash is never taken for a regular expression here, since only the grammar
  knows where an operand is due.
-/

namespace CodeIndex.Script

open Text

/-- A place in a source: what is left of it, and the byte and the row, from 0, of the place. -/
structure Point where
  rest : Text
  byte : Nat
  row : Nat
  deriving Inhabited

/-- A character that ends a line, as far as an omitted semicolon is concerned. -/
def endsLine (c : Char) : Bool := c = '\n' || c = '\u2028' || c = '\u2029'

/-- A blank between tokens. -/
def isSpace (c : Char) : Bool :=
  c = ' ' || ('\t' ≤ c && c ≤ '\r') || c = '\u00a0' || c = '\u1680' ||
    ('\u2000' ≤ c && c ≤ '\u200b') || c = '\u2028' || c = '\u2029' || c = '\u202f' ||
    c = '\u205f' || c = '\u2060' || c = '\u3000' || c = '\ufeff'

/-- A character of a name, after the first. Beyond the ASCII characters all but blanks count. -/
def isNameChar (c : Char) : Bool :=
  c.isAlphanum || c = '_' || c = '$' || ('\x7f' ≤ c && !isSpace c)

/-- The first character of a name. -/
def startsName (c : Char) : Bool := isNameChar c && !c.isDigit

/-- The row after a character. -/
def rowAfter (row : Nat) (c : Char) : Nat := if c = '\n' then row + 1 else row

namespace Point

/-- Moves on as long as the automaton `step` accepts the next character. -/
def runFrom {σ : Type} (step : σ → Char → Option σ) : (state : σ) → (byte row : Nat) → Text →
    σ × Point
  | state, byte, row, [] => (state, ⟨[], byte, row⟩)
  | state, byte, row, c :: t =>
    match step state c with
    | none => (state, ⟨c :: t, byte, row⟩)
    | some state => runFrom step state (byte + c.utf8Size) (rowAfter row c) t

/-- The state and the place in which the automaton stops. -/
def run {σ : Type} (step : σ → Char → Option σ) (state : σ) (p : Point) : σ × Point :=
  runFrom step state p.byte p.row p.rest

/-- The place after the characters of a class. -/
def skipWhile (keep : Char → Bool) (p : Point) : Point :=
  (p.run (fun (_ : Unit) c => if keep c then some () else none) ()).2

/-- The place `n` characters further on. -/
def skip (n : Nat) (p : Point) : Point :=
  (p.run (fun k _ => if k = 0 then none else some (k - 1)) n).2

end Point

/-! ## Blanks and comments -/

/-- Where the reader of blanks and comments is. -/
inductive Trivia where
  /-- Between comments. -/
  | blank
  /-- In a comment up to the end of the line. -/
  | line
  /-- In a comment between `/*` and `*/`. -/
  | block

/-- The place after the blanks and comments, and whether a line ends among them. -/
def skipTriviaFrom : Trivia → (newline : Bool) → (byte row : Nat) → Text → Point × Bool
  | _, newline, byte, row, [] => (⟨[], byte, row⟩, newline)
  | .blank, newline, byte, row, '/' :: '/' :: t => skipTriviaFrom .line newline (byte + 2) row t
  | .blank, newline, byte, row, '/' :: '*' :: t => skipTriviaFrom .block newline (byte + 2) row t
  | .blank, newline, byte, row, c :: t =>
    if isSpace c then
      skipTriviaFrom .blank (newline || endsLine c) (byte + c.utf8Size) (rowAfter row c) t
    else (⟨c :: t, byte, row⟩, newline)
  | .line, newline, byte, row, c :: t =>
    skipTriviaFrom (if endsLine c || c = '\r' then .blank else .line) (newline || endsLine c)
      (byte + c.utf8Size) (rowAfter row c) t
  | .block, newline, byte, row, '*' :: '/' :: t => skipTriviaFrom .blank newline (byte + 2) row t
  | .block, newline, byte, row, c :: t =>
    skipTriviaFrom .block (newline || endsLine c) (byte + c.utf8Size) (rowAfter row c) t

/-- The place after the blanks and comments, and whether a line ends among them. -/
def Point.skipTrivia (p : Point) : Point × Bool := skipTriviaFrom .blank false p.byte p.row p.rest

/-- The place after the last comment that starts on the line of the place, where `last` is the place
after the last one so far. -/
def skipLineCommentsFrom (last : Point) : Trivia → (byte row : Nat) → Text → Point
  | .line, byte, row, [] => ⟨[], byte, row⟩
  | _, _, _, [] => last
  | .blank, byte, row, '/' :: '/' :: t => skipLineCommentsFrom last .line (byte + 2) row t
  | .blank, byte, row, '/' :: '*' :: t => skipLineCommentsFrom last .block (byte + 2) row t
  | .blank, byte, row, c :: t =>
    if isSpace c && c ≠ '\n' then skipLineCommentsFrom last .blank (byte + c.utf8Size) row t
    else last
  | .line, byte, row, c :: t =>
    if endsLine c || c = '\r' then ⟨c :: t, byte, row⟩
    else skipLineCommentsFrom last .line (byte + c.utf8Size) row t
  | .block, byte, row, '*' :: '/' :: t =>
    skipLineCommentsFrom ⟨t, byte + 2, row⟩ .blank (byte + 2) row t
  | .block, byte, row, c :: t =>
    skipLineCommentsFrom last .block (byte + c.utf8Size) (rowAfter row c) t

/-- The place after the last comment that starts on the line of a place. -/
def Point.skipLineComments (p : Point) : Point := skipLineCommentsFrom p .blank p.byte p.row p.rest

/-! ## Literals -/

/-- Where the reader of a literal is. -/
inductive Literal where
  | inside
  /-- After a backslash. -/
  | escaped
  /-- Between the brackets of a class of characters of a regular expression. -/
  | set
  /-- After a backslash in such a class. -/
  | setEscaped
  /-- After the delimiter at the end. -/
  | closed
  deriving DecidableEq

/-- The automaton of a string in the given quotes, from after the first quote. -/
def stringStep (quote : Char) : Literal → Char → Option Literal
  | .inside, c => some (if c = quote then .closed else if c = '\\' then .escaped else .inside)
  | .escaped, _ => some .inside
  | _, _ => none

/-- The automaton of a regular expression, from after the first slash. -/
def regexStep : Literal → Char → Option Literal
  | .inside, c =>
    if endsLine c then none
    else some
      (if c = '/' then .closed else if c = '\\' then .escaped else if c = '[' then .set
        else .inside)
  | .escaped, c => if endsLine c then none else some .inside
  | .set, c =>
    if endsLine c then none
    else some (if c = ']' then .inside else if c = '\\' then .setEscaped else .set)
  | .setEscaped, c => if endsLine c then none else some .set
  | .closed, c => if isNameChar c then some .closed else none

/-- Where the reader of a number is. -/
structure NumberState where
  /-- The number has a base other than ten, so that it holds neither point nor exponent. -/
  based : Bool
  /-- The point was read. -/
  point : Bool
  /-- The mark of the exponent was just read. -/
  mark : Bool

/-- The automaton of a number. -/
def numberStep (s : NumberState) (c : Char) : Option NumberState :=
  if c = '.' then if s.based || s.point then none else some { s with point := true, mark := false }
  else if c = '+' || c = '-' then if s.mark then some { s with mark := false } else none
  else if isNameChar c then some { s with mark := !s.based && (c = 'e' || c = 'E') }
  else none

/-- Where the reader of the text of a template is. -/
inductive TemplateState where
  | inside
  | escaped
  /-- After a dollar sign. -/
  | dollar

/-- The automaton of the text of a template: it stops at the closing backtick, and at the brace that
opens a substitution. -/
def templateStep : TemplateState → Char → Option TemplateState
  | .escaped, _ => some .inside
  | s, c =>
    if c = Char.ofNat 96 then none
    else if c = '\\' then some .escaped
    else if c = '$' then some .dollar
    else match s with
      | .dollar => if c = '\x7b' then none else some .inside
      | _ => some .inside

/-- Where the reader of a name is. -/
inductive NameState where
  | inside
  /-- After the backslash of an escape. -/
  | backslash
  /-- After the `u` of an escape. -/
  | mark
  /-- Between the braces of an escape. -/
  | braces

/-- The automaton of a name. -/
def nameStep : NameState → Char → Option NameState
  | .inside, c => if c = '\\' then some .backslash else if isNameChar c then some .inside else none
  | .backslash, c => if c = 'u' then some .mark else none
  | .mark, c => if c = '\x7b' then some .braces else if isNameChar c then some .inside else none
  | .braces, c => some (if c = '\x7d' then .inside else .braces)

/-! ## Tokens -/

/-- A token. -/
inductive Token where
  /-- A name or a keyword. -/
  | word (text : String)
  /-- A name after a number sign. -/
  | privateName
  | number
  | string
  /-- A backtick. -/
  | template
  /-- A mark of punctuation. -/
  | symbol (text : String)
  /-- The end of the source. -/
  | finish
  deriving DecidableEq, Inhabited

/-- The marks of punctuation of more than one character, each before those that begin it. Angle
brackets are not among them. -/
def longSymbols : List (Text × String) :=
  ["...", "=>", "===", "!==", "**=", "&&=", "||=", "??=", "==", "!=", "**", "&&", "||", "??", "++",
    "--", "+=", "-=", "*=", "/=", "%=", "&=", "|=", "^="].map fun s => (s.toList, s)

/-- The mark of punctuation at the start of a text whose first character is `c`. -/
def symbolAt (c : Char) (t : Text) : String :=
  match c :: t with
  | '?' :: '.' :: d :: _ => if d.isDigit then "?" else "?."
  | all => ((longSymbols.find? fun s => startsWith s.1 all).map (·.2)).getD (String.singleton c)

/-- The characters at the start of a text that fill `n` bytes. -/
def takeBytes : Nat → Text → Text
  | _, [] => []
  | n, c :: t => if n = 0 then [] else c :: takeBytes (n - c.utf8Size) t

/-- The token at a place, and the place after it. -/
def Point.lex (p : Point) : Token × Point :=
  match p.rest with
  | [] => (.finish, p)
  | c :: t =>
    if startsName c || (c = '\\' && t.head? = some 'u') then
      let q := (p.run nameStep .inside).2
      (.word (String.ofList (takeBytes (q.byte - p.byte) p.rest)), q)
    else if c.isDigit || (c = '.' && t.head?.any (·.isDigit)) then
      let based := c = '0' && t.head?.any fun d => "xXbBoO".toList.contains d
      (.number, (p.run numberStep ⟨based, false, false⟩).2)
    else if c = '\'' || c = '"' then (.string, ((p.skip 1).run (stringStep c) .inside).2)
    else if c = Char.ofNat 96 then (.template, p.skip 1)
    else if c = '#' && t.head?.any startsName then
      (.privateName, ((p.skip 1).run nameStep .inside).2)
    else
      let s := symbolAt c t
      (.symbol s, p.skip s.length)

end CodeIndex.Script
