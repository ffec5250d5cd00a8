import CodeIndex.Endpoint.Controller
import CodeIndex.Schema.Declarative

/-!
# Tables from entities

A class is an entity table, in a file that mentions `@Entity`, when some of its properties carry
column or relation decorators on the lines above them.
-/

namespace CodeIndex.Schema

open Text

/-- The header of a class with a name. -/
def classHeader (name : Text) : Recogniser Unit := fun before t => do
  guard (isBoundary before t.head?)
  let t ← blanks1? (← after? "class".toList t)
  let t ← after? name t
  guard (isBoundary (if name = [] then some ' ' else name.getLast?) t.head?)
  return ((), t)

/-- The body of the class with a name, in its braces. -/
def classBody? (content : Text) (name : Text) : Option Text := do
  let hit ← search? (classHeader name) content
  let (_, rest) ← cut? ['\x7b'] hit.rest
  return captureBalanced '\x7b' '\x7d' ('\x7b' :: rest)

/-- A decorator with its arguments. -/
structure Decorator where
  kind : Text
  args : Text
  deriving DecidableEq, Repr

/-- The arguments of a call up to its closing parenthesis, with at most one level of parentheses
inside, of which one is open if `inner`. -/
def flatArguments? : (inner : Bool) → (seen : Text) → Text → Option (Text × Text)
  | _, _, [] => none
  | inner, seen, c :: t =>
    if c = '(' then if inner then none else flatArguments? true (c :: seen) t
    else if c = ')' then
      if inner then flatArguments? false (c :: seen) t else some (seen.reverse, t)
    else flatArguments? inner (c :: seen) t

/-- A decorator that fills a line, and the text from the next line on. -/
def decoratorLine? (t : Text) : Option (Decorator × Text) := do
  let (kind, t) ← word? (← after? ['@'] (t.dropWhile isSpaceOrTab))
  let (args, t) ← flatArguments? false [] (← after? ['('] t)
  let t ← after? ['\n'] (t.dropWhile isSpaceOrTab)
  return (⟨kind, args⟩, t)

/-- Words that may stand before the name of a property. -/
def propertyModifiers : List Text :=
  ["public", "private", "protected", "readonly", "declare"].map String.toList

/-- The declaration of the property `name` at the head of a line. -/
def property? (name : Text) (t : Text) : Option Text :=
  let line := t.dropWhile isSpaceOrTab
  let read (t : Text) : Option Text := do
    let t := trimLeft (← after? name t)
    let t := match t with
      | c :: rest => if c = '!' ∨ c = '?' then trimLeft rest else t
      | [] => t
    after? [':'] t
  Endpoint.afterWords propertyModifiers read line.length line

/-- Decorators on lines of their own, at least one, and then the property `name`. -/
def decoratedProperty? (name : Text) : (fuel : Nat) → Text → Option (List Decorator × Text)
  | 0, _ => none
  | fuel + 1, t =>
    match decoratorLine? t with
    | none => none
    | some (d, rest) =>
      match decoratedProperty? name fuel rest with
      | some (ds, t) => some (d :: ds, t)
      | none => (property? name rest).map fun t => ([d], t)

/-- The decorators above the property `name`. -/
def decoratedProperty (name : Text) : Recogniser (List Decorator) := fun _ t =>
  match t.dropWhile isSpaceOrTab with
  | '@' :: _ => decoratedProperty? name t.length t
  | _ => none

/-- Decorators that relate a property to one other entity. -/
def relationDecorators : List Text := ["ManyToOne", "OneToOne"].map String.toList

/-- The name after an arrow. -/
def arrowTarget : Recogniser Text := fun _ t => do
  Endpoint.scriptName? (trimLeft (← after? "=>".toList t))

/-- The column of a property, if its decorators make it one. -/
def entityColumn? (body property : Text) : Option Column := do
  let (name, type) := cutProperty property
  let hit ← search? (decoratedProperty name) body
  let isRelation (d : Decorator) : Bool := relationDecorators.contains d.kind
  match hit.value.filter fun d => endsWith "Column".toList d.kind || isRelation d with
  | [] => none
  | relevant =>
    some {
      name, type
      nullable := relevant.any fun d => occurs (setting "nullable" ':' "true") d.args
      primary := relevant.any fun d => startsWith "Primary".toList d.kind
      foreign := (relevant.filter isRelation).findSome? fun d =>
        (search? arrowTarget d.args).map (·.value) }

/-- The tables of the entities in a file. -/
def entityTables (outline : Outline) (content : Text) : List Table :=
  if contains "@Entity".toList content then
    outline.classes.filterMap fun c =>
      if c.properties = [] then none
      else
        match (classBody? content c.name).map fun body =>
          c.properties.filterMap (entityColumn? body) with
        | none | some [] => none
        | some columns =>
          some { name := c.name, file := outline.relativePath, line := c.line, columns }
  else []

end CodeIndex.Schema
