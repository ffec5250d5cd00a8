import CodeIndex.Script.Grammar.Statement

/-!
# Syntax trees of whole scripts

`grammar` closes the recursion of the grammar by a bound on its depth, and `parse` reads a whole
script. What cannot be read is skipped token by token, so that the statements around it are kept;
the tree then says that it is broken.
-/

namespace CodeIndex.Script

open CodeIndex.Script.Parser

/-- The grammar of a dialect to a depth. -/
def grammar (dialect : Dialect) (limit : Nat) : (depth : Nat) → Grammar
  | 0 =>
    { dialect, limit
      expression := fun _ => failure
      statement := failure
      type := failure
      pattern := failure
      element := failure }
  | depth + 1 =>
    { dialect, limit
      expression := fun ctx i => (grammar dialect limit depth).expressionBody ctx i
      statement := fun i => (grammar dialect limit depth).statementBody i
      type := fun i => (grammar dialect limit depth).typeBody i
      pattern := fun i => (grammar dialect limit depth).patternBody i
      element := fun i => (grammar dialect limit depth).elementBody i }

/-- A syntax tree of a script. -/
structure SyntaxTree where
  root : Node
  /-- Some of the script could not be read. -/
  broken : Bool

/-- The statements of a script after those already read, in reverse, and whether some of the script
could not be read. -/
def statementsFrom (g : Grammar) : (limit : Nat) → (broken : Bool) → List Node → Input →
    List Node × Bool
  | 0, _, seen, _ => (seen.reverse, true)
  | limit + 1, broken, seen, i =>
    if i.token = .finish then (seen.reverse, broken)
    else match g.statement i with
      | some (n, j) => statementsFrom g limit broken (n :: seen) j
      | none => statementsFrom g limit true seen (.ofPoint i.after)

/-- The line at the start of a script that names its interpreter, and the place after it. -/
def interpreterLine (p : Point) : List Node × Point :=
  match p.rest with
  | '#' :: '!' :: _ =>
    let q := p.skipWhile (· ≠ '\n')
    ([.mk "hash_bang_line".toList p.byte q.byte p.row true none []], q)
  | _ => ([], p)

/-- The syntax tree of a script. -/
def parse (dialect : Dialect) (content : Text) : SyntaxTree :=
  let limit := content.length + 1
  let (first, p) := interpreterLine ⟨content, 0, 0⟩
  let (statements, broken) :=
    statementsFrom (grammar dialect limit (4 * limit + 16)) limit false [] (.ofPoint p)
  let stop := ((first ++ statements).getLast?.map (·.stop)).getD 0
  { root := .mk "program".toList 0 stop 0 true none (first ++ statements), broken }

end CodeIndex.Script
