import CodeIndex.Ignore.Glob
import CodeIndex.Text.Blank
import CodeIndex.Text.Lines

/-!
# Ignore rules

A rule says which paths, relative to the root of the repository, are left out. A pattern with a
slash before its end is about the whole path, any other about every component. One that ends in a
slash is about directories. The last rule that fits a path decides, and a rule after `!` brings
paths back.
-/

namespace CodeIndex

/-- An ignore rule. -/
structure IgnoreRule where
  pattern : Text
  directoryOnly : Bool
  anchored : Bool
  negate : Bool
  hasSlash : Bool
  deriving DecidableEq, Repr

namespace IgnoreRule

/-- The rule fits a path. -/
def fits (r : IgnoreRule) (path : Text) (isDir : Bool) : Bool :=
  if r.pattern = [] || (r.directoryOnly && !isDir) then false
  else if r.anchored || r.hasSlash then
    Glob.fits r.pattern path ||
      (r.directoryOnly && Text.startsWith (r.pattern ++ ['/']) path)
  else (Text.splitChar '/' path).any (Glob.fits r.pattern)

/-- The rule of a pattern, unless it is blank. -/
def ofPattern? (pattern : Text) (negate : Bool) : Option IgnoreRule :=
  match Text.trim pattern with
  | [] => none
  | p =>
    let directoryOnly := Text.endsWithChar '/' p
    let p := if directoryOnly then p.dropLast else p
    let anchored := Text.startsWith ['/'] p
    let p := if anchored then p.tail else p
    some { pattern := p, directoryOnly, anchored, negate, hasSlash := '/' ∈ p }

/-- The rule of a line that may start with `!`. -/
def ofLine? (line : Text) : Option IgnoreRule :=
  match line with
  | '!' :: rest => ofPattern? rest true
  | line => ofPattern? line false

/-- The rules of a list of patterns to exclude. -/
def ofPatterns (patterns : List Text) : List IgnoreRule := patterns.filterMap ofLine?

/-- The rules of an ignore file: one on each line that is neither blank nor a comment. -/
def ofFile (content : Text) : List IgnoreRule :=
  (((Text.lines content).map Text.trim).filter fun l => !Text.startsWith ['#'] l).filterMap ofLine?

/-- The path is ignored: the last rule that fits it is no negation. -/
def ignores (rules : List IgnoreRule) (path : Text) (isDir : Bool) : Bool :=
  rules.foldl (fun ignored r => if r.fits path isDir then !r.negate else ignored) false

end IgnoreRule

end CodeIndex
