import CodeIndex.Text.Basic

/-!
# Outlines

What the library knows about a source file: its functions, classes, interfaces and imports, each
with the number of the line on which it is declared. `Outline` collects them for one file.
-/

namespace CodeIndex

/-- A function, a method, or a variable whose value is a function. -/
structure FunctionDecl where
  name : Text
  params : List Text
  line : Int
  returnType : Option Text := none
  isAsync : Bool := false
  isExported : Bool := false
  description : Option Text := none
  deriving DecidableEq, Repr

/-- A class with its methods, and its properties written `name: type`. -/
structure ClassDecl where
  name : Text
  line : Int
  methods : List FunctionDecl := []
  properties : List Text := []
  isExported : Bool := false
  description : Option Text := none
  deriving DecidableEq, Repr

/-- An interface, or a type alias for an object type, with the names of its properties. -/
structure InterfaceDecl where
  name : Text
  line : Int
  properties : List Text := []
  isExported : Bool := false
  description : Option Text := none
  deriving DecidableEq, Repr

/-- An import: the source as written, and the imported names. -/
structure ImportDecl where
  source : Text
  imports : List Text
  line : Int
  deriving DecidableEq, Repr

/-- The declarations of a source, kind by kind. -/
structure Declarations where
  functions : List FunctionDecl := []
  classes : List ClassDecl := []
  interfaces : List InterfaceDecl := []
  imports : List ImportDecl := []
  deriving DecidableEq, Repr

/-- The outline of one file. -/
structure Outline extends Declarations where
  path : Text
  relativePath : Text
  language : Text
  deriving DecidableEq, Repr

/-- Which kinds of declarations an outline lists. Functions are always listed. -/
structure OutlineOptions where
  classes : Bool := true
  interfaces : Bool := true
  imports : Bool := false
  deriving DecidableEq, Repr

/-- Only the kinds that the options ask for. -/
def Declarations.restrict (options : OutlineOptions) (d : Declarations) : Declarations :=
  { d with
    classes := if options.classes then d.classes else []
    interfaces := if options.interfaces then d.interfaces else []
    imports := if options.imports then d.imports else [] }

end CodeIndex
