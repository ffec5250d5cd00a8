import CodeIndex.Script.Grammar.Class
import CodeIndex.Script.Grammar.Element

/-!
# Expressions of scripts

An expression is a function with an arrow, or operands joined by operators. How the operators group
does not matter here: what counts is where an expression ends, which functions and classes it holds,
and whether it is itself a function or a class. An expression that is composed of others is of the
kind `expression`, and its children are the functions, classes and blocks that its parts hold.
-/

namespace CodeIndex.Script.Grammar

open CodeIndex.Script.Parser

variable (g : Grammar)

/-! ## Functions with an arrow -/

/-- The arrow of a function, which stands on the line of its parameters. -/
def arrow : Parser Unit := do
  guard !(← newline)
  expect "=>"

/-- The parameters of a function with an arrow, and the arrow. -/
def arrowHead (ctx : Context) : Parser (List Node) := do
  let generic ← if ← sees "<" then do
      let m ← mark
      guard g.dialect.types
      g.typeParameters
      pure [← close "type_parameters" m []]
    else pure []
  let parameters := (← g.parameters).withField "parameters"
  let result ← if ctx.resultTypes then g.declaredType else pure none
  arrow
  return generic ++ parameters :: (result.map (·.withField "return_type")).toList

/-- A single parameter without parentheses, and the arrow. -/
def singleParameter : Parser (List Node) := do
  let name ← identifier
  arrow
  return [name.withField "parameter"]

/-- The body of a function with an arrow: statements in braces, or an expression. -/
def arrowBody (ctx : Context) : Parser Node := do
  if ← sees "\x7b" then g.block else g.expression ctx

/-- What stands before the body of a function with an arrow. -/
def arrowStart (ctx : Context) : Parser (List Node) := do
  match ← token with
  | .word "async" =>
    let plain ← attempt singleParameter
    if let some head := plain then return head
    let keyword ← punctuation "async"
    guard !(← newline)
    return keyword :: (← singleParameter <|> g.arrowHead ctx)
  | .word _ => singleParameter
  | _ => g.arrowHead ctx

/-- A function with an arrow, if one is there. -/
def arrowFunction (ctx : Context) : Parser (Option Node) := do
  let m ← mark
  match ← attempt (g.arrowStart ctx) with
  | none => return none
  | some head =>
    let body := (← g.arrowBody ctx).withField "body"
    return some (← close "arrow_function" m (head ++ [body]))

/-! ## Literals -/

/-- Words before the name of a method in an object. -/
def methodModifiers : List String := ["get", "set", "async"]

/-- A method of an object after its name. -/
def objectMethod (m : Mark) (name : Node) : Parser (List Node) := do
  let signature ← g.signature
  let body ← g.block
  return [← close "method_definition" m
    (name.withField "name" :: signature ++ [body.withField "body"])]

/-- A property or a method of an object. -/
def objectMember : Parser (List Node) := do
  if ← accept "..." then return (← g.expression {}).parts
  let m ← mark
  if (← seesAnyWord methodModifiers) && (← next (return (← seesPropertyName) || (← sees "*"))) then
    advance
  let _ ← accept "*"
  let name ← g.propertyName
  if ← seesAny ["(", "<"] then g.objectMethod m name
  else if ← accept ":" then return name.children ++ (← g.expression {}).parts
  else if ← accept "=" then return (← g.expression {}).parts
  else return name.children

/-- A regular expression from a slash on. -/
def regex : Parser Unit := do
  let (state, p) := ((← get).start.skip 1).run regexStep .inside
  guard (state = .closed)
  resume p

/-! ## Operands -/

/-- Words that start no operand. -/
def reservedWords : List String :=
  ["break", "case", "catch", "const", "continue", "debugger", "default", "do", "else", "enum",
    "export", "extends", "finally", "for", "if", "in", "instanceof", "return", "switch", "throw",
    "try", "var", "while", "with"]

/-- Operators before an operand that are words. -/
def prefixWords : List String := ["typeof", "void", "delete", "await", "new"]

/-- Operators before an operand. -/
def prefixMarks : List String := ["!", "~", "+", "-", "++", "--"]

/-- The present token can start an operand. -/
def seesOperand : Parser Bool := do
  match ← token with
  | .word w => return !(["in", "of", "instanceof", "as", "satisfies"].contains w)
  | .symbol s =>
    return ["(", "[", "\x7b", "!", "~", "+", "-", "++", "--", "<", "/", "/=", "@"].contains s
  | .finish => return false
  | _ => return true

/-- An operator before an operand, with what it holds. -/
def prefixOperator : Parser (Option Unit) := do
  if ← seesAny prefixMarks then
    advance
    return some ()
  if (← seesAnyWord prefixWords) && (← next seesOperand) then
    advance
    return some ()
  if g.dialect.types && !g.dialect.markup && (← sees "<") then
    g.typeArguments
    return some ()
  return none

/-- An operand without what stands before and after it. -/
def primary : Parser Node := do
  let m ← mark
  match ← token with
  | .word w =>
    if ← seesFunction then return ← g.function false
    if w = "class" then return ← g.classFrom m false []
    guard !(reservedWords.contains w)
    advance
    compose m []
  | .privateName | .number | .string =>
    advance
    compose m []
  | .template =>
    let parts ← g.template (g.sequence {})
    compose m parts
  | .symbol "(" =>
    advance
    let n ← g.sequence {}
    expect ")"
    close "expression" m n.parts
  | .symbol "[" =>
    advance
    let items ← g.commaList "]" g.listItem
    compose m items.flatten
  | .symbol "\x7b" =>
    advance
    let members ← g.commaList "\x7d" g.objectMember
    compose m members.flatten
  | .symbol "<" =>
    guard g.dialect.markup
    advance
    let n ← g.element
    expect ">"
    compose m [n]
  | .symbol "/" | .symbol "/=" =>
    regex
    compose m []
  | .symbol "@" =>
    let decorators ← g.decorators
    g.classFrom m false decorators
  | _ => failure

/-- Marks that may follow the arguments of a generic value that is not called. -/
def afterInstantiation : List String :=
  [")", "]", "\x7d", "\x7b", ":", ";", ",", ".", "?.", "=", "==", "===", "!=", "!==", "&&", "||",
    "??", "&", "|", "^"]

/-- The arguments of a generic value, which is called, or at whose end no operand follows. -/
def instantiation : Parser Unit := do
  g.typeArguments
  guard ((← sees "(") || (← token) = .template || (← seesAny afterInstantiation) || (← newline) ||
    (← seesWord "implements") || (← token) = .finish)

/-- What follows an operand: a member, an index, a call, a template, or an operator after it. -/
def operandSuffix : Parser (Option (List Node)) := do
  match ← token with
  | .template => return some (← g.template (g.sequence {}))
  | .symbol "(" => return some (← g.arguments)
  | .symbol "[" =>
    advance
    let n ← g.sequence {}
    expect "]"
    return some n.parts
  | .symbol "." =>
    advance
    let _ ← g.propertyName
    return some []
  | .symbol "?." =>
    advance
    if (← seesAny ["(", "["]) || (← token) = .template then return some []
    if ← sees "<" then
      g.typeArguments
      return some []
    let _ ← g.propertyName
    return some []
  | .symbol "++" | .symbol "--" =>
    if ← newline then return none
    advance
    return some []
  | .symbol "!" =>
    if !g.dialect.types || (← newline) then return none
    advance
    return some []
  | .symbol "<" =>
    unless g.dialect.types do return none
    return (← attempt g.instantiation).map fun _ => []
  | _ => return none

/-- An operand with what stands before and after it. -/
def operand : Parser Node := do
  let m ← mark
  let prefixes ← collect g.limit g.prefixOperator
  let n ← if (← seesWord "new") && (← next (sees ".")) then do advance; compose m [] else g.primary
  let suffixes ← collect g.limit g.operandSuffix
  if prefixes.isEmpty && suffixes.isEmpty then return n
  compose m (n :: suffixes.flatten)

/-! ## Operators -/

/-- Operators between operands, apart from those with angle brackets. -/
def binaryMarks : List String :=
  ["+", "-", "*", "/", "%", "**", "==", "!=", "===", "!==", "&&", "||", "??", "&", "|", "^"]

/-- Operators that assign. -/
def assignmentMarks : List String :=
  ["=", "+=", "-=", "*=", "/=", "%=", "**=", "&=", "|=", "^=", "&&=", "||=", "??="]

/-- Operators with angle brackets, each before those that begin it. -/
def angleMarks : List String := [">>>=", ">>>", ">>=", ">>", ">=", ">", "<<=", "<<", "<=", "<"]

/-- Reads an operator with angle brackets. -/
def angleOperator : Parser Unit := do
  let p := (← get).start
  match angleMarks.find? fun s => Text.startsWith s.toList p.rest with
  | some s => resume (p.skip s.length)
  | none => failure

/-- The two branches of a condition. A function with the type of its result in the first branch may
look like the end of that branch, so such types are not read if the condition makes no sense with
them. -/
def branches (ctx : Context) : Parser (List Node) := do
  expect "?"
  let yes ← (do let n ← g.expression {}; expect ":"; return n)
    <|> (do let n ← g.expression { resultTypes := false }; expect ":"; return n)
  let no ← g.expression ctx
  return yes.parts ++ no.parts

/-- An operator and what follows it. -/
def operatorTail (ctx : Context) : Parser (Option (List Node)) := do
  match ← token with
  | .symbol "?" => return some (← g.branches ctx)
  | .symbol "<" | .symbol ">" =>
    angleOperator
    return some (← g.operand).parts
  | .symbol s =>
    if binaryMarks.contains s then
      advance
      return some (← g.operand).parts
    if assignmentMarks.contains s then
      advance
      return some (← g.expression ctx).parts
    return none
  | .word "in" =>
    unless ctx.allowIn do return none
    advance
    return some (← g.operand).parts
  | .word "instanceof" =>
    advance
    return some (← g.operand).parts
  | .word w =>
    unless g.dialect.types && (w = "as" || w = "satisfies") && !(← newline) do return none
    advance
    let _ ← g.type
    return some []
  | _ => return none

/-- The value that a generator yields. -/
def yielded (ctx : Context) : Parser Node := do
  let m ← mark
  expectWord "yield"
  let star ← accept "*"
  if star || (!(← newline) && (← seesOperand)) then compose m [← g.expression ctx]
  else compose m []

/-- The word `yield` stands before the value of a generator, and is no name. -/
def seesYield : Parser Bool := do
  unless ← seesWord "yield" do return false
  next do
    match ← token with
    | .symbol s =>
      return s = "*" ||
        ["(", "[", "\x7b", "!", "~", "+", "-", "<", "/", ")", "]", "\x7d", ",", ";"].contains s
    | _ => return true

/-- An expression without commas outside of brackets. -/
def expressionBody (ctx : Context) : Parser Node := do
  if let some n ← g.arrowFunction ctx then return n
  if ← seesYield then return ← g.yielded ctx
  let m ← mark
  let first ← g.operand
  let more ← collect g.limit (g.operatorTail ctx)
  if more.isEmpty then return first
  compose m (first :: more.flatten)

end CodeIndex.Script.Grammar
