import CodeIndex.Decimal
import CodeIndex.Json

/-!
# Writing JSON

Strings are written in ASCII: a character beyond it becomes an escape of its 16-bit units. `render`
lays a document out over lines, two spaces of indentation for each level; `compact` writes it on one
line.
-/

namespace CodeIndex.Json

/-- The hexadecimal digit of a number below 16, in small letters. -/
def hexDigit (n : Nat) : Char := if n < 10 then Char.ofNat (48 + n) else Char.ofNat (87 + n)

/-- The escape of a 16-bit unit. -/
def escapeUnit (n : Nat) : Text :=
  ['\\', 'u', hexDigit (n / 4096 % 16), hexDigit (n / 256 % 16), hexDigit (n / 16 % 16),
    hexDigit (n % 16)]

/-- A character in a string. -/
def escapeChar (c : Char) : Text :=
  if c = '"' then ['\\', '"']
  else if c = '\\' then ['\\', '\\']
  else if c = '\n' then ['\\', 'n']
  else if c = '\r' then ['\\', 'r']
  else if c = '\t' then ['\\', 't']
  else if c = '\x08' then ['\\', 'b']
  else if c = '\x0c' then ['\\', 'f']
  else if 32 ≤ c.toNat ∧ c.toNat < 127 then [c]
  else if c.toNat < 0x10000 then escapeUnit c.toNat
  else
    let n := c.toNat - 0x10000
    escapeUnit (0xD800 + n / 1024) ++ escapeUnit (0xDC00 + n % 1024)

/-- A string with its quotes. -/
def quote (s : Text) : Text := '"' :: (s.flatMap escapeChar ++ ['"'])

/-- A line end and the indentation of a level. -/
def newLine (level : Nat) : Text := '\n' :: List.replicate (2 * level) ' '

mutual

/-- A document on lines of its own, from a level of indentation on. -/
def renderAt (level : Nat) : Json → Text
  | null => "null".toList
  | bool true => "true".toList
  | bool false => "false".toList
  | int n => Text.ofInt n
  | float x => Decimal.ofFloat x
  | str s => quote s
  | arr [] => "[]".toList
  | arr (j :: js) =>
    '[' :: newLine (level + 1) ++ renderAt (level + 1) j ++
      renderItems level js ++ newLine level ++ [']']
  | obj [] => "\x7b\x7d".toList
  | obj ((k, j) :: fields) =>
    '\x7b' :: newLine (level + 1) ++ quote k ++ ": ".toList ++ renderAt (level + 1) j
      ++ renderFields level fields ++ newLine level ++ ['\x7d']

/-- The items of a list after the first. -/
def renderItems (level : Nat) : List Json → Text
  | [] => []
  | j :: js => ',' :: newLine (level + 1) ++ renderAt (level + 1) j ++ renderItems level js

/-- The fields of an object after the first. -/
def renderFields (level : Nat) : List (Text × Json) → Text
  | [] => []
  | (k, j) :: fields =>
    ',' :: newLine (level + 1) ++ quote k ++ ": ".toList ++ renderAt (level + 1) j
      ++ renderFields level fields

end

/-- A document laid out over lines. -/
def render (j : Json) : Text := renderAt 0 j

mutual

/-- Every integer of a document has few enough digits to be written. -/
def isWritable : Json → Bool
  | int n => Text.isShort n
  | arr js => areWritable js
  | obj fields => hasWritable fields
  | _ => true

/-- Every integer of some documents has few enough digits to be written. -/
def areWritable : List Json → Bool
  | [] => true
  | j :: js => isWritable j && areWritable js

/-- Every integer in some fields has few enough digits to be written. -/
def hasWritable : List (Text × Json) → Bool
  | [] => true
  | (_, j) :: fields => isWritable j && hasWritable fields

end

mutual

/-- A document on one line. -/
def compact : Json → Text
  | null => "null".toList
  | bool true => "true".toList
  | bool false => "false".toList
  | int n => Text.ofInt n
  | float x => Decimal.ofFloat x
  | str s => quote s
  | arr [] => "[]".toList
  | arr (j :: js) => '[' :: compact j ++ compactItems js
  | obj [] => "\x7b\x7d".toList
  | obj ((k, j) :: fields) => '\x7b' :: quote k ++ ':' :: compact j ++ compactFields fields

/-- The items of a list after the first, and its end. -/
def compactItems : List Json → Text
  | [] => [']']
  | j :: js => ',' :: compact j ++ compactItems js

/-- The fields of an object after the first, and its end. -/
def compactFields : List (Text × Json) → Text
  | [] => ['\x7d']
  | (k, j) :: fields => ',' :: quote k ++ ':' :: compact j ++ compactFields fields

end

end CodeIndex.Json
