import CodeIndex.Yaml.Time

/-!
# Tags of YAML scalars

A plain scalar without a tag gets one by its form (`Tag.ofPlain`): a truth value, a number, a date,
a time, null, the mark of a merge, or else a string. Each form is told by a test on the whole text.
-/

namespace CodeIndex.Yaml.Tag

/-- The start of the tags of the language itself. -/
def core : Text := "tag:yaml.org,2002:".toList

/-- A tag of the language itself. -/
def named (name : String) : Text := core ++ name.toList

/-- The tag of nothing. -/
def null : Text := named "null"
/-- The tag of truth values. -/
def bool : Text := named "bool"
/-- The tag of integers. -/
def int : Text := named "int"
/-- The tag of floating-point numbers. -/
def float : Text := named "float"
/-- The tag of dates and times. -/
def timestamp : Text := named "timestamp"
/-- The tag of byte sequences in base 64. -/
def binary : Text := named "binary"
/-- The tag of strings. -/
def str : Text := named "str"
/-- The tag of sequences. -/
def seq : Text := named "seq"
/-- The tag of mappings. -/
def map : Text := named "map"
/-- The tag of sets. -/
def set : Text := named "set"
/-- The tag of mappings with an order. -/
def omap : Text := named "omap"
/-- The tag of sequences of pairs. -/
def pairs : Text := named "pairs"
/-- The tag of a key whose value is merged into its mapping. -/
def merge : Text := named "merge"
/-- The tag of a key that gives a mapping its value as a scalar. -/
def value : Text := named "value"

/-! ## Forms -/

/-- The words for truth values. -/
def boolWords : List (String × Bool) :=
  [("yes", true), ("no", false), ("true", true), ("false", false), ("on", true), ("off", false)]

/-- A word in small letters, with a capital, or in capitals. -/
def spellings (w : String) : List Text :=
  let t := w.toList
  [t, match t with | c :: r => c.toUpper :: r | [] => [], t.map Char.toUpper]

/-- A word for a truth value. -/
def isBool (t : Text) : Bool := boolWords.any fun w => (spellings w.1).contains t

/-- A word for nothing. -/
def isNull (t : Text) : Bool := t = [] || t = ['~'] || (spellings "null").contains t

/-- A digit or an underscore. -/
def isDigitOrUnderscore (c : Char) : Bool := c.isDigit || c = '_'

/-- A text without a sign at its start. -/
def unsigned : Text → Text
  | '+' :: t | '-' :: t => t
  | t => t

/-- The rest of a text after parts of one or two digits, each after a colon and less than sixty. -/
def sixtieths : Text → Text
  | ':' :: a :: b :: t =>
    if '0' ≤ a && a ≤ '5' && b.isDigit then sixtieths t
    else if a.isDigit then sixtieths (b :: t)
    else ':' :: a :: b :: t
  | [':', a] => if a.isDigit then [] else [':', a]
  | t => t
termination_by t => t.length

/-- One or more parts of a number in base sixty stand at the start of a text, up to `closing`. -/
def isSixtieths (closing : Text → Bool) (t : Text) : Bool :=
  t.head? = some ':' && (sixtieths t).length < t.length && closing (sixtieths t)

/-- An integer in base two, eight, ten, sixteen or sixty. -/
def isInt (t : Text) : Bool :=
  match unsigned t with
  | '0' :: 'b' :: r => r ≠ [] && r.all fun c => c = '0' || c = '1' || c = '_'
  | '0' :: 'x' :: r => r ≠ [] && r.all fun c => c.isDigit || ('a' ≤ c && c ≤ 'f') ||
      ('A' ≤ c && c ≤ 'F') || c = '_'
  | '0' :: r => r.all fun c => ('0' ≤ c && c ≤ '7') || c = '_'
  | c :: r =>
    c.isDigit && (r.all isDigitOrUnderscore ||
      isSixtieths List.isEmpty (r.dropWhile isDigitOrUnderscore))
  | [] => false

/-- Nothing, or an exponent with its sign. -/
def isExponent : Text → Bool
  | [] => true
  | e :: s :: r => (e = 'e' || e = 'E') && (s = '+' || s = '-') && r ≠ [] && r.all (·.isDigit)
  | _ => false

/-- The fraction of a number after its point. -/
def isFraction (t : Text) : Bool := isExponent (t.dropWhile isDigitOrUnderscore)

/-- A floating-point number, with a point in any case. -/
def isFloat (t : Text) : Bool :=
  match t with
  | '.' :: 'n' :: 'a' :: 'n' :: [] | '.' :: 'N' :: 'a' :: 'N' :: []
  | '.' :: 'N' :: 'A' :: 'N' :: [] => true
  | '.' :: c :: r => (c.isDigit && isFraction r) || (spellings "inf").contains (c :: r)
  | _ =>
    match unsigned t with
    | '.' :: r => (spellings "inf").contains r
    | c :: r =>
      c.isDigit && match r.dropWhile isDigitOrUnderscore with
        | '.' :: f => isFraction f
        | s =>
          isSixtieths (fun u => match u with | '.' :: f => f.all isDigitOrUnderscore | _ => false) s
    | [] => false

/-- The tag of a plain scalar. -/
def ofPlain (t : Text) : Text :=
  if isBool t then bool
  else if isFloat t then float
  else if isInt t then int
  else if t = ['<', '<'] then merge
  else if isNull t then null
  else if Time.isTime t then timestamp
  else if t = ['='] then value
  else str

end CodeIndex.Yaml.Tag
