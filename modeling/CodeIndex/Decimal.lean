import CodeIndex.Text.Basic

/-!
# Floating-point numbers in decimals

A finite binary64 number stands for all reals that round to it. `Decimal.shortest?` is the decimal
with the fewest digits among them, and of those the one nearest to the number itself.
`Decimal.ofFloat` writes it out.
-/

namespace CodeIndex.Decimal

/-- A finite non-negative number `m * 2 ^ q`. -/
structure Binary where
  m : Nat
  q : Int
  /-- The gap to the number below is half the gap to the number above. -/
  narrowBelow : Bool

/-- The magnitude with the given bits, which are those of a finite number. -/
def Binary.ofBits (b : UInt64) : Binary :=
  let e := ((b >>> 52) &&& 0x7FF).toNat
  let f := (b &&& 0xFFFFFFFFFFFFF).toNat
  if e = 0 then ⟨f, -1074, false⟩ else ⟨Nat.pow 2 52 + f, (e : Int) - 1075, f = 0 && e > 1⟩

/-- Compares `a * 10 ^ i` with `n * 2 ^ j`. -/
def compareScaled (a : Nat) (i : Int) (n : Nat) (j : Int) : Ordering :=
  compare (a * Nat.pow 10 i.toNat * Nat.pow 2 (-j).toNat)
    (n * Nat.pow 2 j.toNat * Nat.pow 10 (-i).toNat)

/-- The decimal `digits * 10 ^ exp` rounds to the number: it lies between the midpoints to its
neighbours, which count when the number is even. -/
def Binary.readsBack (x : Binary) (digits : Nat) (exp : Int) : Bool :=
  let low := compareScaled digits exp (4 * x.m - (if x.narrowBelow then 1 else 2)) (x.q - 2)
  let high := compareScaled digits exp (4 * x.m + 2) (x.q - 2)
  let even := x.m % 2 = 0
  (low == .gt || (even && low == .eq)) && (high == .lt || (even && high == .eq))

/-- The number divided by `10 ^ exp`, rounded down. -/
def Binary.scaledFloor (x : Binary) (exp : Int) : Nat :=
  (x.m * Nat.pow 2 x.q.toNat * Nat.pow 10 (-exp).toNat) /
    (Nat.pow 2 (-x.q).toNat * Nat.pow 10 exp.toNat)

/-- Of the two multiples of `10 ^ exp` around the number, the one that rounds to it; the nearer one
if both do, and the even one if they are equally near. -/
def Binary.onGrid? (x : Binary) (exp : Int) : Option Nat :=
  let d := x.scaledFloor exp
  match x.readsBack d exp, x.readsBack (d + 1) exp with
  | false, false => none
  | true, false => some d
  | false, true => some (d + 1)
  | true, true =>
    match compareScaled (2 * d + 1) exp (2 * x.m) x.q with
    | .gt => some d
    | .lt => some (d + 1)
    | .eq => some (if d % 2 = 0 then d else d + 1)

/-- The first of the exponents `start`, `start - 1`, … at which a multiple of the power of ten
rounds to the number, within a number of steps. -/
def Binary.search? (x : Binary) : (steps : Nat) → (start : Int) → Option (Nat × Int)
  | 0, _ => none
  | n + 1, e =>
    match x.onGrid? e with
    | some (d + 1) => some (d + 1, e)
    | _ => search? x n (e - 1)

/-- Trailing zeros move from the digits into the exponent. -/
def stripZeros : (steps : Nat) → Nat → Int → Nat × Int
  | 0, d, e => (d, e)
  | n + 1, d, e => if d ≠ 0 ∧ d % 10 = 0 then stripZeros n (d / 10) (e + 1) else (d, e)

/-- The shortest decimal `digits * 10 ^ exp` that rounds to a positive number. -/
def shortest (x : Binary) : Nat × Int :=
  match x.search? 700 310 with
  | some (d, e) => stripZeros 400 d e
  | none => (x.m, 0)

/-- The digits of a decimal with a point after the first `point` of them (which may be none, or more
than there are), and at least one digit on either side. -/
def positional (digits : Text) (point : Int) : Text :=
  if point ≤ 0 then "0.".toList ++ List.replicate (-point).toNat '0' ++ digits
  else
    let n := point.toNat
    let whole := digits.take n ++ List.replicate (n - digits.length) '0'
    match digits.drop n with
    | [] => whole ++ ".0".toList
    | fraction => whole ++ '.' :: fraction

/-- The digits of a decimal in scientific form: one before the point, and an exponent of at least
two digits with its sign. -/
def scientific (digits : Text) (exp : Int) : Text :=
  let mantissa := match digits with
    | a :: b :: rest => a :: '.' :: b :: rest
    | _ => digits
  let sign := if exp < 0 then '-' else '+'
  let e := Text.ofNat exp.natAbs
  mantissa ++ 'e' :: sign :: (if e.length < 2 then '0' :: e else e)

/-- A floating-point number in its shortest form: positional from `0.0001` up to sixteen digits
before the point, scientific beyond. -/
def ofFloat (x : Float) : Text :=
  if x.isNaN then "nan".toList
  else
    let sign : Text := if x.toBits >>> 63 = 1 then ['-'] else []
    if x.isInf then sign ++ "inf".toList
    else
      let b := Binary.ofBits x.toBits
      if b.m = 0 then sign ++ "0.0".toList
      else
        let (d, e) := shortest b
        let digits := Text.ofNat d
        let point := (digits.length : Int) + e
        sign ++ (if -4 < point ∧ point ≤ 16 then positional digits point
          else scientific digits (point - 1))

/-- The value of a run of decimal digits, after `n`. -/
def digitsValue (n : Nat) (digits : Text) : Nat :=
  digits.foldl (fun n c => 10 * n + (c.toNat - 48)) n

/-- The number nearest to `digits * 10 ^ exp`. -/
def toFloat (digits : Nat) (exp : Int) : Float :=
  if digits = 0 then 0.0
  else if exp > 400 then 1.0 / 0.0
  else if exp < -(400 + (Nat.toDigits 10 digits).length) then 0.0
  else Float.ofScientific digits (exp < 0) exp.natAbs

end CodeIndex.Decimal
