import CodeIndex.Script.Grammar.Basic

/-!
# Elements of markup in scripts

An element stands between angle brackets, and its content is text up to the next element or
expression in braces. Text is not read token by token: it goes from the place after a bracket or
brace to the next one. Elements are therefore read up to their last bracket, and what contains them
goes on from there.
-/

namespace CodeIndex.Script.Grammar

open CodeIndex.Script.Parser

variable (g : Grammar)

/-- A character of the name of an element or of an attribute. -/
def isElementNameChar (c : Char) : Bool := isNameChar c || c = '-' || c = ':' || c = '.'

/-- The name of an element or of an attribute. -/
def elementName : Parser Unit := do
  match ← token with
  | .word _ => resume ((← get).start.skipWhile isElementNameChar)
  | _ => failure

/-- A string of an attribute, in which a backslash means itself. -/
def attributeString : Parser Unit := do
  guard ((← token) = .string)
  let i ← get
  let quote := i.start.rest.head?.getD '"'
  let p := (i.start.skip 1).skipWhile (· ≠ quote)
  guard (!p.rest.isEmpty)
  resume (p.skip 1)

/-- An expression in braces, up to the closing brace. It may be spread, and it may be empty. -/
def braced : Parser (List Node) := do
  expect "\x7b"
  let _ ← accept "..."
  if ← sees "\x7d" then return []
  let n ← g.sequence {}
  guard (← sees "\x7d")
  return n.parts

/-- An attribute of an element. -/
def elementAttribute : Parser (List Node) := do
  if ← sees "\x7b" then
    let parts ← g.braced
    advance
    return parts
  elementName
  unless ← accept "=" do return []
  if ← sees "\x7b" then
    let parts ← g.braced
    advance
    return parts
  if ← accept "<" then
    let n ← g.element
    expect ">"
    return n.parts
  attributeString
  return []

/-- The content of an element from a place in its text on, up to the last bracket of the closing
tag. -/
def contentFrom : (limit : Nat) → Point → List Node → Parser (List Node)
  | 0, _, _ => failure
  | limit + 1, p, seen => do
    resume (p.skipWhile fun c => c ≠ '<' && c ≠ '\x7b')
    if ← sees "\x7b" then
      let parts ← g.braced
      contentFrom limit (← get).after (seen ++ parts)
    else
      expect "<"
      if ← accept "/" then
        unless ← sees ">" do elementName
        guard (← sees ">")
        return seen
      let n ← g.element
      contentFrom limit (← get).after (seen ++ n.parts)

/-- An element after its first bracket and up to its last one. -/
def elementBody : Parser Node := do
  let m ← mark
  if ← sees ">" then return ← compose m (← g.contentFrom g.limit (← get).after [])
  elementName
  if g.dialect.types && (← sees "<") then g.typeArguments
  let attributes ← collect g.limit do
    if ← seesAny [">", "/"] then return none
    return some (← g.elementAttribute)
  if ← accept "/" then
    guard (← sees ">")
    compose m attributes.flatten
  else
    let content ← g.contentFrom g.limit (← get).after []
    compose m (attributes.flatten ++ content)

end CodeIndex.Script.Grammar
