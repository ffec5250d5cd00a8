import CodeIndex.Decimal
import CodeIndex.Json
import CodeIndex.Text.Blank

/-!
# Reading JSON

`parse?` reads a whole text as one document. Every reader of a part takes the text that is left and
returns the part with what remains; the fuel bounds the nesting and the number of items, and the
length of the text is always enough.
-/

namespace CodeIndex.Json

/-- The characters between the tokens of a document. -/
def isGap (c : Char) : Bool := c = ' ' || c = '\n' || c = '\r' || c = '\t'

/-- The text without the gap at its head. -/
def skipGap (t : Text) : Text := t.dropWhile isGap

/-- The 16-bit unit that four hexadecimal digits write. -/
def unit? (a b c d : Char) : Option Nat := do
  return ((← Text.hexValue? a) * 16 + (← Text.hexValue? b)) * 256 + (← Text.hexValue? c) * 16 +
    (← Text.hexValue? d)

/-- A high and a low surrogate make one character. -/
def pair? (high low : Nat) : Option Char :=
  if 0xD800 ≤ high ∧ high < 0xDC00 ∧ 0xDC00 ≤ low ∧ low < 0xE000 then
    some (Char.ofNat (0x10000 + (high - 0xD800) * 1024 + (low - 0xDC00)))
  else none

/-- The character of a one-letter escape. -/
def letterEscape? : Char → Option Char
  | '"' => some '"'
  | '\\' => some '\\'
  | '/' => some '/'
  | 'b' => some '\x08'
  | 'f' => some '\x0c'
  | 'n' => some '\n'
  | 'r' => some '\r'
  | 't' => some '\t'
  | _ => none

/-- The character with the code point of a unit that is no surrogate. -/
def single? (n : Nat) : Option Char :=
  if 0xD800 ≤ n ∧ n < 0xE000 then none else some (Char.ofNat n)

/-- The rest of a string up to its closing quote, after the characters `seen`, in reverse. -/
def stringBody? : (seen : Text) → Text → Option (Text × Text)
  | _, [] => none
  | seen, '"' :: t => some (seen.reverse, t)
  | seen, '\\' :: 'u' :: a :: b :: c :: d :: t =>
    match unit? a b c d with
    | none => none
    | some n =>
      match single? n with
      | some u => stringBody? (u :: seen) t
      | none =>
        match t with
        | '\\' :: 'u' :: e :: f :: g :: h :: t =>
          match (unit? e f g h).bind (pair? n) with
          | some u => stringBody? (u :: seen) t
          | none => none
        | _ => none
  | seen, '\\' :: e :: t =>
    match letterEscape? e with
    | some c => stringBody? (c :: seen) t
    | none => none
  | seen, c :: t => if c.toNat < 32 then none else stringBody? (c :: seen) t

/-- A string at the head of a text that starts with its opening quote. -/
def string? : Text → Option (Text × Text)
  | '"' :: t => stringBody? [] t
  | _ => none

/-- The exponent at the head of a text, if there is one. -/
def exponent? (t : Text) : Option (Int × Text) :=
  match t with
  | e :: t =>
    if e = 'e' ∨ e = 'E' then
      let (negative, t) := match t with
        | '-' :: t => (true, t)
        | '+' :: t => (false, t)
        | t => (false, t)
      let (digits, t) := t.span Char.isDigit
      if digits = [] then none
      else
        let n := Decimal.digitsValue 0 digits
        some (if negative then -(n : Int) else n, t)
    else none
  | [] => none

/-- The fraction at the head of a text: its digits, none if there is no fraction. -/
def fraction (t : Text) : Text × Text :=
  match t with
  | '.' :: t' =>
    match t'.span Char.isDigit with
    | ([], _) => ([], t)
    | (digits, rest) => (digits, rest)
  | _ => ([], t)

/-- A number at the head of a text. -/
def number? (t : Text) : Option (Json × Text) :=
  let (negative, t) := match t with
    | '-' :: t => (true, t)
    | t => (false, t)
  let (whole, t) := t.span Char.isDigit
  if whole = [] ∨ (whole.head? = some '0' ∧ whole.length > 1) then none
  else
    let (frac, t) := fraction t
    let n := Decimal.digitsValue 0 whole
    match frac, exponent? t with
    | [], none => some (int (if negative then -(n : Int) else n), t)
    | frac, e =>
      let (exp, t) := e.getD (0, t)
      let x := Decimal.toFloat (Decimal.digitsValue n frac) (exp - frac.length)
      some (float (if negative then -x else x), t)

mutual

/-- A value at the head of a text, after a gap. -/
def value? : (fuel : Nat) → Text → Option (Json × Text)
  | 0, _ => none
  | fuel + 1, t =>
    match skipGap t with
    | 'n' :: 'u' :: 'l' :: 'l' :: t => some (null, t)
    | 't' :: 'r' :: 'u' :: 'e' :: t => some (bool true, t)
    | 'f' :: 'a' :: 'l' :: 's' :: 'e' :: t => some (bool false, t)
    | '"' :: t => (string? ('"' :: t)).map fun (s, t) => (str s, t)
    | '[' :: t =>
      match skipGap t with
      | ']' :: t => some (arr [], t)
      | t => (items? fuel t).map fun (js, t) => (arr js, t)
    | '\x7b' :: t =>
      match skipGap t with
      | '\x7d' :: t => some (obj [], t)
      | t => (fields? fuel t).map fun (fs, t) => (obj fs, t)
    | t => number? t

/-- The items of a list up to its closing bracket. -/
def items? : (fuel : Nat) → Text → Option (List Json × Text)
  | 0, _ => none
  | fuel + 1, t =>
    match value? fuel t with
    | none => none
    | some (j, t) =>
      match skipGap t with
      | ']' :: t => some ([j], t)
      | ',' :: t => (items? fuel t).map fun (js, t) => (j :: js, t)
      | _ => none

/-- The fields of an object up to its closing brace. -/
def fields? : (fuel : Nat) → Text → Option (List (Text × Json) × Text)
  | 0, _ => none
  | fuel + 1, t =>
    match string? (skipGap t) with
    | none => none
    | some (k, t) =>
      match skipGap t with
      | ':' :: t =>
        match value? fuel t with
        | none => none
        | some (j, t) =>
          match skipGap t with
          | '\x7d' :: t => some ([(k, j)], t)
          | ',' :: t => (fields? fuel t).map fun (fs, t) => ((k, j) :: fs, t)
          | _ => none
      | _ => none

end

/-- The document that a text is. -/
def parse? (t : Text) : Option Json :=
  match value? (t.length + 1) t with
  | some (j, rest) => if skipGap rest = [] then some j else none
  | none => none

end CodeIndex.Json
