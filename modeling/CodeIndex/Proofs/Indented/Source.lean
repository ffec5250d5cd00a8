import CodeIndex.Indented.Outline
import CodeIndex.Proofs.Text.Bracket
import CodeIndex.Proofs.Text.Lines

/-!
# Modules and their canonical text

A module is a list of functions and classes. The types of this file carry what makes their texts
printable: a name is a word, a parameter has its commas in brackets, a line of a body is indented
deeper than its header. So every module can be printed, and `Source.print` writes it in source order
with four spaces for each level of indentation.

`Source.declared` are the declarations of a module, read off the module itself: each function and
class with the line on which its header is printed. That the outline of the printed text is just
this is `declarations_print`.
-/

namespace CodeIndex.Indented.Source

open Text

/-! ## Pieces of text -/

/-- A word that is not empty. -/
structure Name where
  text : Text
  nonempty : text ≠ []
  word : ∀ c ∈ text, isWord c = true

/-- A piece of code on one line, without quotes and without blanks around it. Its brackets are
properly nested, and what stands outside of them satisfies `top`. -/
structure Phrase (top : Char → Prop) where
  text : Text
  nonempty : text ≠ []
  trimmed : trim text = text
  singleLine : SingleLine text
  quoteFree : QuoteFree text
  nested : Nested top text

/-- A piece of code with commas anywhere. -/
abbrev Code := Phrase fun _ => True

/-- A parameter: no comma stands outside of its brackets. -/
abbrev Param := Phrase (· ≠ ',')

/-- The type that a function returns. -/
structure Annotation extends Code where
  noColon : ':' ∉ text
  noOpening : '(' ∉ text
  noClosing : ')' ∉ text

/-- The type of an attribute. -/
structure AttributeType extends Code where
  noEquals : '=' ∉ text
  noDef : ¬ "def ".toList <:+: text

/-- The type of a column, the first argument of its call. -/
structure ColumnType extends Code where
  noComma : ',' ∉ text
  noOpening : '(' ∉ text
  noClosing : ')' ∉ text

/-- The text of a docstring on one line. -/
structure Docstring where
  text : Text
  nonempty : text ≠ []
  trimmed : trim text = text
  singleLine : SingleLine text
  quoteFree : QuoteFree text

/-- A line of a body, below a header with `depth` blanks before it. -/
structure BodyLine (depth : Nat) where
  text : Text
  nonblank : trimLeft text ≠ []
  deeper : depth < indentation text
  noString : ∀ q : Delimiter, ¬ q.chars <:+: text
  singleLine : SingleLine text

/-! ## Items -/

/-- A function whose header has `depth` spaces before it. -/
structure Function (depth : Nat) where
  name : Name
  isAsync : Bool
  params : List Param
  returns : Option Annotation
  doc : Option Docstring
  body : List (BodyLine depth)

/-- A member of a class. -/
inductive Member where
  /-- An attribute with a type. -/
  | typed (name : Name) (type : AttributeType)
  /-- An attribute that is a column, with the arguments of its call after the type. -/
  | column (name : Name) (type : ColumnType) (args : List Code)
  | method (f : Function 4)

/-- A class. -/
structure Class where
  name : Name
  bases : List Name
  doc : Option Docstring
  members : List Member

/-- An item of a module. -/
inductive Item where
  | function (f : Function 0)
  | class (c : Class)

/-! ## Printing -/

/-- A text after some spaces. -/
def indented (n : Nat) (t : Text) : Text := List.replicate n ' ' ++ t

/-- The line of a docstring, if there is one. -/
def docLines (n : Nat) (doc : Option Docstring) : List Text :=
  doc.toList.map fun d => indented n (Delimiter.double.chars ++ (d.text ++ Delimiter.double.chars))

namespace Function

variable {depth : Nat} (f : Function depth)

/-- The end of the header, after the parameters. -/
def ending : Text := (f.returns.elim [] fun r => " -> ".toList ++ r.text) ++ [':']

/-- The header from the parenthesis before its parameters on. -/
def call : Text := '(' :: (commaList (f.params.map (·.text)) ++ ')' :: f.ending)

/-- The header without the spaces before it. -/
def header : Text :=
  (if f.isAsync then "async ".toList else []) ++ ("def ".toList ++ (f.name.text ++ f.call))

/-- The lines of a function: its header, its docstring and its body. -/
def lines : List Text :=
  indented depth f.header :: (docLines (depth + 4) f.doc ++ f.body.map (·.text))

end Function

/-- The lines of a member. -/
def Member.lines : Member → List Text
  | typed name type => [indented 4 (name.text ++ (": ".toList ++ type.text))]
  | column name type args =>
    [indented 4 (name.text ++ (" = Column(".toList ++
      (commaList (type.text :: args.map (·.text)) ++ [')'])))]
  | method f => f.lines

namespace Class

variable (c : Class)

/-- The header of a class. -/
def header : Text :=
  "class ".toList ++ (c.name.text ++
    ((if c.bases = [] then [] else '(' :: (commaList (c.bases.map (·.text)) ++ [')'])) ++ [':']))

/-- The lines of the body: the docstring and the members, or `pass` if there is nothing. -/
def bodyLines : List Text :=
  docLines 4 c.doc ++ (c.members.flatMap Member.lines ++
    if c.doc.isNone && c.members.isEmpty then [indented 4 "pass".toList] else [])

/-- The lines of a class. -/
def lines : List Text := c.header :: c.bodyLines

end Class

/-- The lines of an item, with `gap` empty lines after it. -/
def Item.lines (gap : Nat) : Item → List Text
  | function f => f.lines ++ List.replicate gap []
  | .class c => c.lines ++ List.replicate gap []

/-- The text of a module, with `gap` empty lines after each item. -/
def print (gap : Nat) (items : List Item) : Text := unlines (items.flatMap (Item.lines gap))

-- the canonical text of a class with a base, an attribute and a method
example :
    let type : AttributeType :=
      ⟨⟨"int".toList, by decide, by decide, by decide, by decide, .of_forall (by decide)⟩,
        by decide, by decide⟩
    let param : Param :=
      ⟨"self".toList, by decide, by decide, by decide, by decide,
        .char rfl (by decide) (.char rfl (by decide) (.char rfl (by decide)
          (.char rfl (by decide) (.nil _))))⟩
    let norm : Function 4 :=
      { name := ⟨"norm".toList, by decide, by decide⟩, isAsync := true, params := [param]
        returns := none, doc := none
        body := [⟨"        return abs(self.x)".toList, by decide, by decide,
          by rintro (_ | _) <;> decide, by decide⟩] }
    print 1 [.class
      { name := ⟨"Point".toList, by decide, by decide⟩
        bases := [⟨"Base".toList, by decide, by decide⟩]
        doc := none
        members := [.typed ⟨"x".toList, by decide, by decide⟩ type, .method norm] }] =
      ("class Point(Base):\n    x: int\n    async def norm(self):\n" ++
        "        return abs(self.x)\n\n").toList := by
  decide

/-! ## Declarations -/

/-- Each element with the line on which it starts, when the first starts on line `n` and an element
takes `height` lines. -/
def placed {α : Type} (height : α → Nat) : (n : Nat) → List α → List (Nat × α)
  | _, [] => []
  | n, a :: as => (n, a) :: placed height (n + height a) as

/-- The record of a function whose header is on line `n`. -/
def Function.record (f : Function 0) (n : Nat) : FunctionDecl where
  name := f.name.text
  params := f.params.map (·.text)
  line := n
  returnType := f.returns.map (·.text)
  isAsync := f.isAsync
  isExported := true
  description := f.doc.map (·.text)

/-- The record of a method whose header is on line `n`. It does not list the parameters `self` and
`cls`. -/
def Function.methodRecord (f : Function 4) (n : Nat) : FunctionDecl where
  name := f.name.text
  params := (f.params.map (·.text)).filter fun p => p ≠ "self".toList ∧ p ≠ "cls".toList
  line := n
  returnType := f.returns.map (·.text)
  isAsync := f.isAsync
  isExported := false
  description := f.doc.map (·.text)

/-- The record of a method at line `n`, if the member is one. -/
def Member.methodRecord? (n : Nat) : Member → Option FunctionDecl
  | method f => some (f.methodRecord n)
  | _ => none

/-- The property that an attribute declares. -/
def Member.property? : Member → Option Text
  | typed name type => some (name.text ++ ": ".toList ++ type.text)
  | column name type _ => some (name.text ++ ": ".toList ++ type.text)
  | method _ => none

/-- The record of a class whose header is on line `n`. -/
def Class.record (c : Class) (n : Nat) : ClassDecl where
  name := c.name.text
  line := n
  methods := (placed (·.lines.length) (n + 1 + c.doc.toList.length) c.members).filterMap
    fun (n, m) => m.methodRecord? n
  properties := c.members.filterMap Member.property?
  isExported := true
  description := c.doc.map (·.text)

/-- The record of a function at line `n`, if the item is one. -/
def Item.functionRecord? (n : Nat) : Item → Option FunctionDecl
  | function f => some (f.record n)
  | .class _ => none

/-- The record of a class at line `n`, if the item is one. -/
def Item.classRecord? (n : Nat) : Item → Option ClassDecl
  | function _ => none
  | .class c => some (c.record n)

/-- The declarations of a module, in source order. -/
def declared (options : OutlineOptions) (gap : Nat) (items : List Item) : Declarations :=
  let placed := placed (fun i => (i.lines gap).length) 1 items
  { functions := placed.filterMap fun (n, i) => i.functionRecord? n
    classes := if options.classes then placed.filterMap fun (n, i) => i.classRecord? n else [] }

end CodeIndex.Indented.Source
