import CodeIndex.Text.Basic

/-!
# Blanks, line boundaries, quotes and digits

The character classes that every scanner uses.

* A blank is a Unicode white-space character or one of the four information separators. Around a
  number only white space is passed over.
* A line boundary ends a line; a carriage return followed by a line feed is one boundary.
* A decimal digit is a character of the Unicode general category Nd. The digits of a script stand in
  order in blocks of ten. Hexadecimal digits are those of ASCII.
-/

namespace CodeIndex.Text

/-- White space, including the information separators. -/
def isBlank (c : Char) : Bool :=
  c = ' ' || (9 ≤ c.toNat && c.toNat ≤ 13) || (28 ≤ c.toNat && c.toNat ≤ 31) ||
  c.toNat = 0x85 || c.toNat = 0xA0 || c.toNat = 0x1680 ||
  (0x2000 ≤ c.toNat && c.toNat ≤ 0x200A) || c.toNat = 0x2028 || c.toNat = 0x2029 ||
  c.toNat = 0x202F || c.toNat = 0x205F || c.toNat = 0x3000

/-- White space, without the information separators. -/
def isWhite (c : Char) : Bool := isBlank c && !(28 ≤ c.toNat && c.toNat ≤ 31)

/-- The characters that end a line. -/
def isLineBoundary (c : Char) : Bool :=
  (10 ≤ c.toNat && c.toNat ≤ 13) || (28 ≤ c.toNat && c.toNat ≤ 30) ||
  c.toNat = 0x85 || c.toNat = 0x2028 || c.toNat = 0x2029

/-- The text without blanks at its start. -/
def trimLeft (t : Text) : Text := stripLeft isBlank t

/-- The text without blanks at its end. -/
def trimRight (t : Text) : Text := stripRight isBlank t

/-- The text without blanks at its ends. -/
def trim (t : Text) : Text := strip isBlank t

/-- The text without white space at its ends. -/
def trimWhite (t : Text) : Text := strip isWhite t

/-- What follows a non-empty run of blanks at the head of a text. -/
def blanks1? : Text → Option Text
  | [] => none
  | c :: t => if isBlank c then some (trimLeft t) else none

/-- A single or a double quote. -/
def isQuote (c : Char) : Bool := c = '"' || c = '\''

/-- A space or a tab. -/
def isSpaceOrTab (c : Char) : Bool := c = ' ' || c = '\t'

/-- The ranges of decimal digits from code point 128 on; each is a sequence of blocks `0` to `9`. -/
def digitRanges : List (Nat × Nat) :=
  [
    (1632, 1641), (1776, 1785), (1984, 1993), (2406, 2415), (2534, 2543), (2662, 2671),
    (2790, 2799), (2918, 2927), (3046, 3055), (3174, 3183), (3302, 3311), (3430, 3439),
    (3558, 3567), (3664, 3673), (3792, 3801), (3872, 3881), (4160, 4169), (4240, 4249),
    (6112, 6121), (6160, 6169), (6470, 6479), (6608, 6617), (6784, 6793), (6800, 6809),
    (6992, 7001), (7088, 7097), (7232, 7241), (7248, 7257), (42528, 42537), (43216, 43225),
    (43264, 43273), (43472, 43481), (43504, 43513), (43600, 43609), (44016, 44025), (65296, 65305),
    (66720, 66729), (68912, 68921), (69734, 69743), (69872, 69881), (69942, 69951), (70096, 70105),
    (70384, 70393), (70736, 70745), (70864, 70873), (71248, 71257), (71360, 71369), (71472, 71481),
    (71904, 71913), (72016, 72025), (72784, 72793), (73040, 73049), (73120, 73129), (92768, 92777),
    (92864, 92873), (93008, 93017), (120782, 120831), (123200, 123209), (123632, 123641),
    (125264, 125273), (130032, 130041)
  ]

/-- The value of a decimal digit of any script. -/
def digitValue? (c : Char) : Option Nat :=
  if c.isDigit then some (c.toNat - 48)
  else (digitRanges.find? fun r => r.1 ≤ c.toNat && c.toNat ≤ r.2).map fun r =>
    (c.toNat - r.1) % 10

/-- The value of a hexadecimal digit. -/
def hexValue? (c : Char) : Option Nat :=
  if c.isDigit then some (c.toNat - 48)
  else if 'a' ≤ c ∧ c ≤ 'f' then some (c.toNat - 87)
  else if 'A' ≤ c ∧ c ≤ 'F' then some (c.toNat - 55)
  else none

/-- The value of a digit in a base of at most sixteen, of any script if it is decimal. -/
def baseDigit? (base : Nat) (c : Char) : Option Nat :=
  match (digitValue? c).or (hexValue? c) with
  | some d => if d < base then some d else none
  | none => none

end CodeIndex.Text
