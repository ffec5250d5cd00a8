import CodeIndex.Text.Basic

/-!
# JSON documents

The values of JSON. A number written without fraction and exponent is an integer of any size; the
others are floating-point numbers. The fields of an object are in the order of the text.
-/

namespace CodeIndex

/-- A JSON value. -/
inductive Json where
  | null
  | bool (b : Bool)
  | int (n : Int)
  | float (x : Float)
  | str (s : Text)
  | arr (items : List Json)
  | obj (fields : List (Text × Json))
  deriving Inhabited

namespace Json

/-- The value of the last field with a name, as later fields replace earlier ones. -/
def get? (key : Text) : Json → Option Json
  | obj fields => (fields.reverse.find? (·.1 = key)).map (·.2)
  | _ => none

/-- A text, or null. -/
def ofText? : Option Text → Json
  | none => null
  | some t => str t

end Json

end CodeIndex
