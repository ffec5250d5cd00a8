/-!
# Texts as lists of characters

A text is the list of its characters, so that every scanner of this library recurses on it and every
count is a count of characters. The scanners that meet whole files run in constant stack space: they
carry what they have read in reverse.

* `Text.after? lit t` is what follows the literal `lit` at the head of `t`.
* `Text.cut? needle t` cuts `t` around the first occurrence of `needle`; `Text.splitOn` around all
  of them, from left to right and without overlap.
* `Text.strip p t` removes the characters of the class `p` from both ends of `t`.
* `Text.ofInt n` writes an integer of any size. The program refuses one with more than
  `Text.maxDigits` digits (`Text.isShort`).
-/

namespace CodeIndex

/-- A text, character by character. -/
abbrev Text := List Char

namespace Text

/-- What follows `lit` at the head of the text, if the text starts with it. -/
def after? : (lit : Text) → Text → Option Text
  | [], t => some t
  | _ :: _, [] => none
  | a :: lit, b :: t => if a = b then after? lit t else none

/-- The text starts with `lit`. -/
def startsWith (lit t : Text) : Bool := (after? lit t).isSome

/-- The text ends with `lit`. -/
def endsWith (lit t : Text) : Bool := startsWith lit.reverse t.reverse

/-- A text ends with a character iff that is its last one. -/
def endsWithChar (c : Char) (t : Text) : Bool := t.getLast? == some c

/-! ## Occurrences of one text in another -/

/-- The text before the first occurrence of `needle` and the text after it; `seen` is what was
passed so far, in reverse. -/
def cutFrom? (needle : Text) : (seen : Text) → Text → Option (Text × Text)
  | seen, [] => if needle = [] then some (seen.reverse, []) else none
  | seen, c :: t =>
    match after? needle (c :: t) with
    | some rest => some (seen.reverse, rest)
    | none => cutFrom? needle (c :: seen) t

/-- The text before the first occurrence of `needle` and the text after it. -/
def cut? (needle t : Text) : Option (Text × Text) := cutFrom? needle [] t

theorem length_of_after? {lit t rest : Text} (h : after? lit t = some rest) :
    lit.length + rest.length = t.length := by
  fun_induction after? lit t with
  | case1 t => simp_all
  | case2 => simp at h
  | case3 lit b t ih => have := ih h; simp; omega
  | case4 => simp at h

theorem length_of_cutFrom? {needle seen t a b : Text}
    (h : cutFrom? needle seen t = some (a, b)) :
    a.length + needle.length + b.length = seen.length + t.length := by
  fun_induction cutFrom? needle seen t with
  | case1 seen hn =>
    simp only [Option.some.injEq, Prod.mk.injEq] at h
    obtain ⟨rfl, rfl⟩ := h
    simp [hn]
  | case2 => simp at h
  | case3 seen c t rest hr =>
    simp only [Option.some.injEq, Prod.mk.injEq] at h
    obtain ⟨rfl, rfl⟩ := h
    have := length_of_after? hr
    simp only [List.length_reverse]; omega
  | case4 seen c t _ ih => have := ih h; simp only [List.length_cons] at this ⊢; omega

theorem length_of_cut? {needle t a b : Text} (h : cut? needle t = some (a, b)) :
    a.length + needle.length + b.length = t.length := by
  simpa using length_of_cutFrom? h

/-- The text contains `needle`. -/
def contains (needle t : Text) : Bool := (cut? needle t).isSome

/-- The text contains one of the markers. -/
def containsAny (markers : List Text) (t : Text) : Bool := markers.any (contains · t)

/-- The position of the first occurrence of `needle`. -/
def find? (needle t : Text) : Option Nat := (cut? needle t).map (·.1.length)

/-- The pieces of the text between the occurrences of a non-empty `sep`, found from left to right
without overlap. An empty `sep` cuts nothing. -/
def splitOn (sep t : Text) : List Text :=
  if _hs : sep = [] then [t] else
  match _h : cut? sep t with
  | none => [t]
  | some (a, b) => a :: splitOn sep b
termination_by t.length
decreasing_by
  have := length_of_cut? _h
  have : 0 < sep.length := List.length_pos_iff.mpr _hs
  omega

/-- The text before the first occurrence of `sep`, or the whole text. -/
def before (sep t : Text) : Text := ((cut? sep t).map (·.1)).getD t

/-- The pieces of the text between the occurrences of one character; `piece` is the piece being
read, in reverse. -/
def splitCharFrom (sep : Char) : (piece : Text) → Text → List Text
  | piece, [] => [piece.reverse]
  | piece, c :: t =>
    if c = sep then piece.reverse :: splitCharFrom sep [] t else splitCharFrom sep (c :: piece) t

/-- The pieces of the text between the occurrences of one character. -/
def splitChar (sep : Char) (t : Text) : List Text := splitCharFrom sep [] t

/-- The texts in order with `sep` between them. -/
def join (sep : Text) (parts : List Text) : Text := List.intercalate sep parts

/-- Every occurrence of a non-empty text replaced by another. -/
def replace (old new t : Text) : Text := join new (splitOn old t)

/-! ## Trimming -/

/-- The text without the characters of a class at its start. -/
def stripLeft (p : Char → Bool) (t : Text) : Text := t.dropWhile p

/-- The text without the characters of a class at its end. -/
def stripRight (p : Char → Bool) (t : Text) : Text := (t.reverse.dropWhile p).reverse

/-- The text without the characters of a class at both ends. -/
def strip (p : Char → Bool) (t : Text) : Text := stripRight p (stripLeft p t)

/-! ## Order -/

/-- Order by code points: the first differing character decides, and a proper initial part comes
first. -/
def le : Text → Text → Bool
  | [], _ => true
  | _ :: _, [] => false
  | a :: s, b :: t => if a = b then le s t else a.toNat < b.toNat

/-- The texts in code point order. -/
def sort (ts : List Text) : List Text := ts.mergeSort le

/-- The sorted list without equal neighbours. -/
def dedupSorted : List Text → List Text
  | [] => []
  | [a] => [a]
  | a :: b :: ts => if a = b then dedupSorted (b :: ts) else a :: dedupSorted (b :: ts)

/-- The different texts of a list in code point order. -/
def sortedSet (ts : List Text) : List Text := dedupSorted (sort ts)

/-- The decimal digits of a number. -/
def ofNat (n : Nat) : Text := (Nat.toDigits 10 n)

/-- The decimal digits of an integer, after a minus sign when it is negative. -/
def ofInt : Int → Text
  | .ofNat n => ofNat n
  | .negSucc n => '-' :: ofNat (n + 1)

/-- The most digits of an integer that is read from a text, or written as one. -/
def maxDigits : Nat := 4300

/-- The integer has few enough digits to be written as a text. -/
def isShort (n : Int) : Bool := (ofNat n.natAbs).length ≤ maxDigits

end Text

end CodeIndex
