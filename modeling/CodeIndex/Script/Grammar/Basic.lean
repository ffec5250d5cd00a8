import CodeIndex.Script.Parser

/-!
# The grammar of scripts

The grammar is recursive: expressions hold functions, functions hold statements, and statements hold
expressions. A `Grammar` gives the parsers of the recursive notions one level further down; every
notion is defined over such a `Grammar`, and the recursion is closed in `Script.Syntax`.

This module has what the other parts of the grammar share: lists, templates, names of properties,
arguments, and the brackets of generic types.
-/

namespace CodeIndex.Script

open CodeIndex.Script.Parser

/-- A dialect of the language. -/
structure Dialect where
  /-- There are types. -/
  types : Bool
  /-- There are elements of markup among the expressions. -/
  markup : Bool

/-- What may stand in an expression. -/
structure Context where
  /-- The operator `in` may stand outside of brackets. -/
  allowIn : Bool := true
  /-- A function may give the type of its result after its parameters. -/
  resultTypes : Bool := true

/-- The recursive notions of the grammar. -/
structure Grammar where
  dialect : Dialect
  /-- A bound on the length of lists. -/
  limit : Nat
  /-- An expression without commas outside of brackets. -/
  expression : Context → Parser Node
  statement : Parser Node
  type : Parser Node
  /-- A name, or a pattern that takes a value apart. -/
  pattern : Parser Node
  /-- An element of markup, after its first bracket and up to its last one. -/
  element : Parser Node

namespace Grammar

variable (g : Grammar)

/-! ## Ends of statements -/

/-- A semicolon can be omitted at the end of a line before this text. -/
def startsStatement : Text → Bool
  | '+' :: t => Text.startsWith ['+'] t
  | '-' :: t => Text.startsWith ['-'] t
  | '!' :: t => !Text.startsWith ['='] t
  | c :: _ => !(Char.ofNat 96 :: ",.;*%><=?^|&/:".toList).contains c
  | [] => true

/-- An omitted semicolon, as far as the comments on its line are concerned: with types, the comments
that stand between a statement and the end of its line belong to the statement. -/
def omittedSemicolon : Parser Unit := do
  if g.dialect.types then
    let i ← get
    let p := i.last.skipLineComments
    let follows := match (p.skipWhile fun c => isSpace c && c ≠ '\n').rest with
      | '\n' :: _ => startsStatement i.start.rest
      | c :: _ => c = '\x7d'
      | [] => true
    if follows then set { i with last := p }

/-- The end of a statement: a semicolon, or a place where one may be omitted. -/
def semicolon : Parser Unit := do
  if ← accept ";" then return
  guard ((← newline) || (← sees "\x7d") || (← token) = .finish)
  g.omittedSemicolon

/-! ## Lists -/

/-- What `item` reads until the closing mark, with commas in between. -/
def commaList {α : Type} (closing : String) (item : Parser α) : Parser (List α) :=
  collect g.limit do
    if ← accept closing then return none
    let a ← item
    guard ((← accept ",") || (← sees closing))
    return some a

/-- Expressions with commas in between. -/
def sequence (ctx : Context) : Parser Node := do
  let m ← mark
  let first ← g.expression ctx
  unless ← sees "," do return first
  let more ← collect g.limit do
    unless ← accept "," do return none
    return some (← g.expression ctx)
  compose m (first :: more)

/-- An item of a list of values: it may be left out, and it may be spread. -/
def listItem : Parser (List Node) := do
  if ← sees "," then return []
  let _ ← accept "..."
  return (← g.expression {}).parts

/-- The arguments of a call. -/
def arguments : Parser (List Node) := do
  expect "("
  return (← g.commaList ")" g.listItem).flatten

/-! ## Templates -/

/-- The rest of a template from a place in its text, with substitutions read by `item`. -/
def templateFrom (item : Parser Node) : (limit : Nat) → Point → List Node → Parser (List Node)
  | 0, _, _ => failure
  | limit + 1, p, seen => do
    let q := (p.run templateStep .inside).2
    guard (!q.rest.isEmpty)
    resume (q.skip 1)
    if q.rest.head? = some (Char.ofNat 96) then return seen
    let n ← item
    guard (← sees "\x7d")
    templateFrom item limit (← get).after (seen ++ n.parts)

/-- A template, with substitutions read by `item`. -/
def template (item : Parser Node) : Parser (List Node) := do
  guard ((← token) = .template)
  templateFrom item g.limit (← get).after []

/-! ## Names -/

/-- The name of a property or of a member. -/
def propertyName : Parser Node := do
  match ← token with
  | .word _ => leaf "property_identifier"
  | .privateName => leaf "private_property_identifier"
  | .string => leaf "string"
  | .number => leaf "number"
  | _ =>
    let m ← mark
    expect "["
    let n ← g.expression {}
    expect "]"
    close "computed_property_name" m n.parts

/-- The present token can start the name of a property. -/
def seesPropertyName : Parser Bool := do
  match ← token with
  | .word _ | .privateName | .string | .number => return true
  | t => return t = .symbol "["

/-- Any word. -/
def anyWord : Parser Unit := do
  match ← token with
  | .word _ => advance
  | _ => failure

/-- A word as the name of what is declared. -/
def identifier : Parser Node := do
  match ← token with
  | .word _ => leaf "identifier"
  | _ => failure

/-! ## Types in brackets and after colons -/

/-- The arguments of a generic type. -/
def typeArguments : Parser Unit := do
  expect "<"
  let _ ← g.commaList ">" g.type

/-- A parameter of a generic declaration. -/
def typeParameter : Parser Unit := do
  anyWord
  let _ ← collect g.limit do
    match ← token with
    | .word w => if w = "extends" then return none else advance; return some ()
    | _ => return none
  if ← acceptWord "extends" then let _ ← g.type
  if ← accept "=" then let _ ← g.type

/-- The parameters of a generic declaration, if there are any. -/
def typeParameters : Parser Unit := do
  if g.dialect.types then
    if ← accept "<" then let _ ← g.commaList ">" g.typeParameter

/-- A colon and a type, if they are there. -/
def declaredType : Parser (Option Node) := do
  unless g.dialect.types do return none
  unless ← sees ":" do return none
  let m ← mark
  advance
  let _ ← g.type
  return some (← close "type_annotation" m [])

end Grammar

end CodeIndex.Script
