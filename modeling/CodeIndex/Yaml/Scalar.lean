import CodeIndex.Config.Value
import CodeIndex.Yaml.Cursor
import CodeIndex.Yaml.Tag

/-!
# Values of YAML scalars

What the text of a scalar means under its tag. A scalar may be given a tag that its text does not
fit; that is a fault.
-/

namespace CodeIndex.Yaml

open Text

namespace Scalar

/-- A text without the underscores that group digits. -/
def ungrouped (t : Text) : Text := t.filter (· ≠ '_')

/-- A text without the sign at its start, and whether that is a minus. -/
def signed : Text → Bool × Text
  | '-' :: t => (true, t)
  | '+' :: t => (false, t)
  | t => (false, t)

/-- The digits of an integer without the mark of its base. -/
def withoutMark (base : Nat) : Text → Text
  | '0' :: m :: t =>
    if (base = 2 && (m = 'b' || m = 'B')) || (base = 8 && (m = 'o' || m = 'O')) ||
      (base = 16 && (m = 'x' || m = 'X')) then t else '0' :: m :: t
  | t => t

/-- The integer that a text writes in a base, perhaps with a sign and white space around. -/
def integer (base : Nat) (t : Text) : Except Fault Int := do
  let (negative, ds) := signed (trimWhite t)
  let ds := withoutMark base ds
  match ds.foldlM (fun n c => (baseDigit? base c).map fun d => base * n + d) 0 with
  | none => throw (.notInteger base t)
  | some n =>
    if ds = [] then throw (.notInteger base t)
    if base = 10 && ds.length > maxDigits then throw (.tooManyDigits ds.length)
    return if negative then -(n : Int) else n

/-- Parts in base sixty, the last of which counts ones. -/
def sexagesimal (parts : List Int) : Int := parts.foldl (fun n p => 60 * n + p) 0

/-- The value of a scalar with the tag of integers. -/
def int (t : Text) : Except Fault Int := do
  let t := ungrouped t
  if t = [] then throw .emptyNumber
  let (negative, t) := signed t
  let n ←
    if t = ['0'] then pure 0
    else match t with
      | [] => throw .emptyNumber
      | '0' :: 'b' :: r => integer 2 r
      | '0' :: 'x' :: r => integer 16 r
      | '0' :: _ => integer 8 t
      | _ =>
        if t.any (· = ':') then pure (sexagesimal (← (splitChar ':' t).mapM (integer 10)))
        else integer 10 t
  return if negative then -n else n

/-- The digits of a decimal: their value, how many there are, and the rest of the text. -/
def decimalDigits : (value count : Nat) → Text → Nat × Nat × Text
  | n, k, [] => (n, k, [])
  | n, k, c :: t =>
    match digitValue? c with
    | some d => decimalDigits (10 * n + d) (k + 1) t
    | none => (n, k, c :: t)

/-- The exponent at the end of a decimal, if it is well formed. -/
def exponent? : Text → Option Int
  | [] => some 0
  | e :: t =>
    if e ≠ 'e' && e ≠ 'E' then none
    else
      let (negative, t) := signed t
      match decimalDigits 0 0 t with
      | (n, k, []) => if k = 0 then none else some (if negative then -(n : Int) else n)
      | _ => none

/-- The floating-point number that a text without a sign writes in decimal digits. -/
def decimal? (t : Text) : Option Float := do
  let (whole, k, t) := decimalDigits 0 0 t
  let (n, j, t) := match t with
    | '.' :: t =>
      let (n, j, t) := decimalDigits whole 0 t
      (n, j, t)
    | t => (whole, 0, t)
  guard (k + j ≠ 0)
  return Decimal.toFloat n ((← exponent? t) - j)

/-- The floating-point number that a text writes, perhaps with a sign and white space
around. -/
def number (t : Text) : Except Fault Float := do
  let (negative, r) := signed (lower (trimWhite t))
  let x ←
    if r = "inf".toList || r = "infinity".toList then pure (1.0 / 0.0)
    else if r = "nan".toList then pure (0.0 / 0.0)
    else match decimal? r with
      | some x => pure x
      | none => throw (.notFloat t)
  return if negative then -x else x

/-- Parts in base sixty as a floating-point number: the last part is added first. -/
def sexagesimalFloat (parts : List Float) : Float :=
  (parts.reverse.foldl (fun (sum, base) p => (sum + p * base, base * 60.0)) (0.0, 1.0)).1

/-- The value of a scalar with the tag of floating-point numbers. -/
def float (t : Text) : Except Fault Float := do
  let t := lower (ungrouped t)
  if t = [] then throw .emptyNumber
  let (negative, t) := signed t
  let x ←
    if t = ".inf".toList then pure (1.0 / 0.0)
    else if t = ".nan".toList then pure (0.0 / 0.0)
    else if t.any (· = ':') then pure (sexagesimalFloat (← (splitChar ':' t).mapM number))
    else number t
  return if negative then -x else x

/-- The value of a scalar with the tag of truth values. -/
def bool (t : Text) : Except Fault Bool :=
  match Tag.boolWords.find? fun w => w.1.toList = lower t with
  | some w => .ok w.2
  | none => .error (.notBool (lower t))

/-- The value of a digit in base 64. -/
def base64? (c : Char) : Option Nat :=
  if 'A' ≤ c && c ≤ 'Z' then some (c.toNat - 65)
  else if 'a' ≤ c && c ≤ 'z' then some (c.toNat - 71)
  else if c.isDigit then some (c.toNat + 4)
  else if c = '+' then some 62
  else if c = '/' then some 63
  else none

/-- The bytes of digits in base 64, four at a time. -/
def base64Bytes : List Nat → Option (List UInt8)
  | [] => some []
  | [_] => none
  | [a, b] => some [UInt8.ofNat (4 * a + b / 16)]
  | [a, b, c] => some [UInt8.ofNat (4 * a + b / 16), UInt8.ofNat (16 * b + c / 4)]
  | a :: b :: c :: d :: r => do
    return UInt8.ofNat (4 * a + b / 16) :: UInt8.ofNat (16 * b + c / 4) ::
      UInt8.ofNat (64 * c + d) :: (← base64Bytes r)

/-- The digits of a text in base 64 up to its padding, in reverse after `seen`: nothing where the
padding is incomplete. Other characters are left out, and padding in the wrong place too. -/
def base64Digits : (seen : List Nat) → (padding : Nat) → Text → Option (List Nat)
  | seen, _, [] => if seen.length % 4 = 0 then some seen.reverse else none
  | seen, padding, '=' :: t =>
    if seen.length % 4 ≥ 2 then
      if seen.length % 4 + padding + 1 ≥ 4 then some seen.reverse
      else base64Digits seen (padding + 1) t
    else base64Digits seen padding t
  | seen, padding, c :: t =>
    match base64? c with
    | some d => base64Digits (d :: seen) 0 t
    | none => base64Digits seen padding t

/-- The value of a scalar with the tag of byte sequences. -/
def bytes (t : Text) : Except Fault (List UInt8) :=
  if t.any fun c => c.toNat ≥ 128 then .error .malformed
  else match (base64Digits [] 0 t).bind base64Bytes with
    | some bs => .ok bs
    | none => .error .malformed

/-- A scalar with the tag of dates and times has a meaning. -/
def checkTime (t : Text) : Except Fault Unit :=
  match Time.parse? t with
  | none => .error .notTime
  | some time => match time.fault? with
    | some reason => .error (.noSuchTime reason)
    | none => .ok ()

/-- The value of a scalar under a tag, if the tag is one for scalars. -/
def value? (tag text : Text) : Option (Except Fault Value) :=
  if tag = Tag.str then some (.ok (.str text))
  else if tag = Tag.null then some (.ok .null)
  else if tag = Tag.bool then some (Value.bool <$> bool text)
  else if tag = Tag.int then some (Value.int <$> int text)
  else if tag = Tag.float then some (Value.float <$> float text)
  else if tag = Tag.binary then some (Value.bytes <$> bytes text)
  else if tag = Tag.timestamp then some ((fun _ => Value.date) <$> checkTime text)
  else none

end Scalar

end CodeIndex.Yaml
