import CodeIndex.Script.Grammar.Basic

/-!
# Functions of scripts

Patterns, parameters, and the parts that functions, methods and types of functions share:
`signature` reads the parameters and the type of the result, `block` the body.
-/

namespace CodeIndex.Script.Grammar

open CodeIndex.Script.Parser

variable (g : Grammar)

/-! ## Decorators -/

/-- What follows the name in a decorator: a member, or the arguments of a call. -/
def decoratorSuffix : Parser (Option (List Node)) := do
  if ← accept "." then
    let _ ← g.propertyName
    return some []
  if ← sees "(" then return some (← g.arguments)
  if g.dialect.types && (← sees "<") then
    g.typeArguments
    return some (← g.arguments)
  return none

/-- A decorator. -/
def decorator : Parser Node := do
  let m ← mark
  expect "@"
  let first ← if ← sees "(" then g.arguments else do anyWord; pure []
  let more ← collect g.limit g.decoratorSuffix
  close "decorator" m (first ++ more.flatten)

/-- All decorators at a place. -/
def decorators : Parser (List Node) :=
  collect g.limit do
    if ← sees "@" then return some (← g.decorator)
    return none

/-! ## Patterns -/

/-- A pattern and its value by default. -/
def patternWithDefault : Parser (List Node) := do
  let n ← g.pattern
  if ← accept "=" then return n.children ++ (← g.expression {}).parts
  return n.children

/-- A part of a pattern that takes a list apart. -/
def elementPattern : Parser (List Node) := do
  if ← sees "," then return []
  if ← accept "..." then return (← g.pattern).children
  g.patternWithDefault

/-- A part of a pattern that takes an object apart. -/
def propertyPattern : Parser (List Node) := do
  if ← accept "..." then return (← g.pattern).children
  let name ← g.propertyName
  if ← accept ":" then return name.children ++ (← g.patternWithDefault)
  if ← accept "=" then return (← g.expression {}).parts
  return name.children

/-- A name or a pattern. -/
def patternBody : Parser Node := do
  let m ← mark
  if ← accept "\x7b" then
    let parts ← g.commaList "\x7d" g.propertyPattern
    close "object_pattern" m parts.flatten
  else if ← accept "[" then
    let parts ← g.commaList "]" g.elementPattern
    close "array_pattern" m parts.flatten
  else identifier

/-! ## Parameters -/

/-- Words that modify a parameter. -/
def parameterModifiers : List String := ["public", "private", "protected", "readonly", "override"]

/-- The present token can start a pattern. -/
def seesPattern : Parser Bool := do
  match ← token with
  | .word _ => return true
  | t => return t = .symbol "\x7b" || t = .symbol "["

/-- A parameter with its decorators, its modifiers, its type and its value by default. -/
def parameter : Parser Node := do
  let m ← mark
  let decorators ← g.decorators
  let _ ← collect g.limit do
    if g.dialect.types && (← seesAnyWord parameterModifiers) && (← next seesPattern) then
      advance
      return some ()
    return none
  let _ ← accept "..."
  let pattern ← g.pattern
  if g.dialect.types then let _ ← accept "?"
  let _ ← g.declaredType
  let default ← if ← accept "=" then g.expression {} else compose m []
  close "required_parameter" m (decorators ++ pattern.children ++ default.parts)

/-- The parameters of a function. -/
def parameters : Parser Node := do
  let m ← mark
  expect "("
  let all ← g.commaList ")" g.parameter
  close "formal_parameters" m all

/-- The parameters of a function and the type of its result, each in its role. -/
def signature : Parser (List Node) := do
  g.typeParameters
  let parameters := (← g.parameters).withField "parameters"
  let result := (← g.declaredType).map (·.withField "return_type")
  return parameters :: result.toList

/-! ## Bodies -/

/-- Statements in braces. -/
def block : Parser Node := do
  let m ← mark
  expect "\x7b"
  let opening ← lastToken
  let statements ← collect g.limit do
    if ← accept "\x7d" then return none
    return some (← g.statement)
  g.omittedSemicolon
  close "statement_block" m (opening :: statements)

/-- A function after the keyword, from the mark `m`. A function without a body is a signature, which
only stands as a statement. -/
def functionFrom (m : Mark) (isStatement : Bool) (head : List Node) : Parser Node := do
  let isGenerator ← accept "*"
  let name ← attempt identifier
  guard (name.isSome || !isStatement)
  let head := head ++ (name.map (·.withField "name")).toList ++ (← g.signature)
  if ← sees "\x7b" then
    let body ← g.block
    let kind := match isStatement, isGenerator with
      | true, true => "generator_function_declaration"
      | true, false => "function_declaration"
      | false, true => "generator_function"
      | false, false => "function_expression"
    close kind m (head ++ [body.withField "body"])
  else
    guard (isStatement && g.dialect.types)
    g.semicolon
    close "function_signature" m head

/-- A function, from the keyword `async` or `function` on. -/
def function (isStatement : Bool) : Parser Node := do
  let m ← mark
  let isAsync ← if ← seesWord "async" then pure [← punctuation "async"] else pure []
  guard (← seesWord "function")
  let keyword ← punctuation "function"
  g.functionFrom m isStatement (isAsync ++ [keyword])

/-- The present token starts a function. -/
def seesFunction : Parser Bool := do
  if ← seesWord "function" then return true
  if ← seesWord "async" then
    return ← next do return !(← newline) && (← seesWord "function")
  return false

end CodeIndex.Script.Grammar
