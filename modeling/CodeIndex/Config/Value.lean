import CodeIndex.Decimal
import CodeIndex.Text.Blank
import CodeIndex.Text.Letter

/-!
# Values of a configuration

The values that a configuration document may hold, and how a setting reads one. A value of an
unusable kind counts as absent.
-/

namespace CodeIndex

/-- A value of a configuration document. -/
inductive Value where
  | null
  | bool (b : Bool)
  | int (n : Int)
  | float (x : Float)
  | str (s : Text)
  | bytes (bs : List UInt8)
  | list (items : List Value)
  | map (entries : List (Value × Value))
  /-- A set of values. -/
  | set (items : List Value)
  /-- A day or a time, which no setting reads. -/
  | date
  /-- A pair, which no setting reads. -/
  | pair (a b : Value)
  deriving Inhabited

namespace Value

/-- The digits of an integer, with single underscores between them: their value, and how many there
are. -/
def digits? : (value count : Nat) → Text → Option (Nat × Nat)
  | _, _, [] => none
  | n, k, [c] => (Text.digitValue? c).map fun d => (10 * n + d, k + 1)
  | n, k, c :: '_' :: t =>
    match Text.digitValue? c with
    | some d => digits? (10 * n + d) (k + 1) t
    | none => none
  | n, k, c :: t =>
    match Text.digitValue? c with
    | some d => digits? (10 * n + d) (k + 1) t
    | none => none

/-- The integer that a text writes in decimal digits, perhaps with a sign and white space around. -/
def parseInt? (t : Text) : Option Int :=
  let (negative, t) := match Text.trimWhite t with
    | '-' :: t => (true, t)
    | '+' :: t => (false, t)
    | t => (false, t)
  match digits? 0 0 t with
  | some (n, k) => if k > Text.maxDigits then none else some (if negative then -(n : Int) else n)
  | none => none

/-- The text of a text, an integer or a floating-point number. -/
def asText? : Value → Option Text
  | str s => some s
  | int n => some (Text.ofInt n)
  | float x => some (Decimal.ofFloat x)
  | _ => none

/-- The value is no integer with too many digits to be written as a text. -/
def isWritable : Value → Bool
  | int n => Text.isShort n
  | _ => true

/-- The integer of an integer, or of a text that writes one. -/
def asInt? : Value → Option Int
  | int n => some n
  | str s => parseInt? s
  | _ => none

/-- The truth value of a truth value, or of a text that names one. -/
def asBool? : Value → Option Bool
  | bool b => some b
  | str s =>
    let w := Text.lower (Text.trim s)
    if ["true", "yes", "1"].any (w = ·.toList) then some true
    else if ["false", "no", "0"].any (w = ·.toList) then some false
    else none
  | _ => none

/-- The text of an item of a list: a text, a number or a truth value. -/
def itemText? : Value → Option Text
  | bool true => some "True".toList
  | bool false => some "False".toList
  | v => v.asText?

/-- The elements of a list or a pair, none for any other value. -/
def elements : Value → List Value
  | list items => items
  | pair a b => [a, b]
  | _ => []

/-- A list of texts: a single text, or the usable items of a list. The items of a byte sequence are
its numbers. -/
def asTexts : Value → List Text
  | str s => [s]
  | bytes bs => bs.map fun b => Text.ofNat b.toNat
  | v => v.elements.filterMap itemText?

/-- The entries of a mapping, none for any other value. -/
def entries : Value → List (Value × Value)
  | map es => es
  | _ => []

/-- The value of a text key in a mapping; the first entry with the key counts. -/
def get? (key : String) (v : Value) : Option Value :=
  (v.entries.find? fun e => match e.1 with
    | str s => s = key.toList
    | _ => false).map (·.2)

/-- The value counts as nothing: null, false, zero, or empty. -/
def isEmpty : Value → Bool
  | null => true
  | bool b => !b
  | int n => n = 0
  | float x => x == 0.0
  | str s => s = []
  | bytes bs => bs = []
  | list items => items.isEmpty
  | map es => es.isEmpty
  | set items => items.isEmpty
  | date => false
  | pair _ _ => false

end Value

end CodeIndex
