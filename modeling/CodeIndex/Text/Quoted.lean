import CodeIndex.Text.Basic
import CodeIndex.Text.Visible

/-!
# Quoted texts

A text in quotes, as messages show it. Single quotes are used unless only they occur in the text;
what has no glyph is written by its code point.
-/

namespace CodeIndex.Text

/-- The last `width` hexadecimal digits of a number, in small letters. -/
def hexDigits : (width : Nat) → Nat → Text
  | 0, _ => []
  | width + 1, n => hexDigits width (n / 16) ++ [Nat.digitChar (n % 16)]

/-- A character as it stands between the given quotes. -/
def quotedChar (quote c : Char) : Text :=
  if c = quote || c = '\\' then ['\\', c]
  else if c = '\n' then ['\\', 'n']
  else if c = '\r' then ['\\', 'r']
  else if c = '\t' then ['\\', 't']
  else if !isVisible c then
    if c.toNat < 0x100 then '\\' :: 'x' :: hexDigits 2 c.toNat
    else if c.toNat < 0x10000 then '\\' :: 'u' :: hexDigits 4 c.toNat
    else '\\' :: 'U' :: hexDigits 8 c.toNat
  else [c]

/-- A text in quotes. -/
def quoted (t : Text) : Text :=
  let quote := if t.any (· = '\'') && !t.any (· = '"') then '"' else '\''
  quote :: t.flatMap (quotedChar quote) ++ [quote]

end CodeIndex.Text
