import CodeIndex.Text.Basic

/-!
# Glob patterns

In a glob pattern `*` stands for any text, `?` for any character, and brackets for one character of
a set, or of none of it when the set starts with `!`. All other characters stand for themselves,
also an opening bracket that is never closed. A hyphen between two characters of a set makes a
range; a range that is empty is left out together with its ends.
-/

namespace CodeIndex

/-- What one position of a pattern stands for. -/
inductive GlobItem where
  /-- Any text. -/
  | star
  /-- Any character. -/
  | any
  /-- One character. -/
  | char (c : Char)
  /-- A character in one of the ranges, or in none of them. -/
  | set (negated : Bool) (ranges : List (Char × Char))
  deriving DecidableEq, Repr

namespace Glob

/-- The item admits a single character. -/
def admits : GlobItem → Char → Bool
  | .star, _ => true
  | .any, _ => true
  | .char a, c => a = c
  | .set negated ranges, c => negated != ranges.any fun r => r.1 ≤ c && c ≤ r.2

/-- The items accept the whole text. -/
def accept : List GlobItem → Text → Bool
  | [], [] => true
  | [], _ :: _ => false
  | .star :: ps, [] => accept ps []
  | .star :: ps, c :: t => accept ps (c :: t) || accept (.star :: ps) t
  | _ :: _, [] => false
  | p :: ps, c :: t => admits p c && accept ps t
termination_by ps t => ps.length + t.length

/-! ## Sets -/

/-- A character of a set, or a hyphen that may make a range. -/
inductive SetToken where
  | char (c : Char)
  | hyphen
  deriving DecidableEq, Repr

/-- The pieces of a set between the hyphens that make ranges. A hyphen counts if it is neither among
the first `skip` characters, nor among the two after another that counts, nor the last character. -/
def chunks : (skip : Nat) → (piece : Text) → Text → List Text
  | _, piece, [] => [piece.reverse]
  | skip + 1, piece, c :: t => chunks skip (c :: piece) t
  | 0, piece, c :: t =>
    if c = '-' ∧ t ≠ [] then piece.reverse :: chunks 2 [] t else chunks 0 (c :: piece) t

/-- The pieces of a set, whose first character is never a hyphen that makes a range. -/
def setChunks (s : Text) : List Text := chunks (if s.head? = some '!' then 2 else 1) [] s

/-- Pieces with an empty range between them are joined without the ends of the range, from the last
piece to the first. -/
def dropEmptyRanges : List Text → List Text
  | [] => []
  | a :: rest =>
    match dropEmptyRanges rest with
    | [] => [a]
    | b :: rest' =>
      match a.getLast?, b.head? with
      | some x, some y =>
        if x.toNat > y.toNat then (a.dropLast ++ b.tail) :: rest' else a :: b :: rest'
      | _, _ => a :: b :: rest'

/-- The tokens of some pieces, with a hyphen between any two. -/
def setTokens : List Text → List SetToken
  | [] => []
  | [a] => a.map .char
  | a :: b :: rest => a.map .char ++ .hyphen :: setTokens (b :: rest)

/-- The ranges of a set. -/
def setRanges : List SetToken → List (Char × Char)
  | [] => []
  | .char a :: .hyphen :: .char b :: rest => (a, b) :: setRanges rest
  | .char a :: rest => (a, a) :: setRanges rest
  | .hyphen :: rest => ('-', '-') :: setRanges rest

/-- The item for the text between the brackets of a set. -/
def setItem (s : Text) : GlobItem :=
  match setTokens (dropEmptyRanges (setChunks s)) with
  | [] => .set false []
  | .char '!' :: rest => .set true (setRanges rest)
  | tokens => .set false (setRanges tokens)

/-- A character at the head of a text, if it is there, and the rest. -/
def optional (c : Char) : Text → Text × Text
  | [] => ([], [])
  | a :: t => if a = c then ([c], t) else ([], a :: t)

theorem length_optional_le (c : Char) (t : Text) : (optional c t).2.length ≤ t.length := by
  unfold optional
  split
  · simp
  · split <;> simp

/-- The set at the head of a text, after its opening bracket, and the text after its closing one.
The closing bracket is the first that is not the first character of the set, a `!` aside. -/
def cutSet? (t : Text) : Option (Text × Text) :=
  let (bang, t) := optional '!' t
  let (first, t) := optional ']' t
  (Text.cut? [']'] t).map fun (s, rest) => (bang ++ first ++ s, rest)

theorem length_of_cutSet? {t s rest : Text} (h : cutSet? t = some (s, rest)) :
    rest.length < t.length := by
  simp only [cutSet?, Option.map_eq_some_iff] at h
  obtain ⟨⟨a, b⟩, hc, h⟩ := h
  simp only [Prod.mk.injEq] at h
  obtain ⟨-, rfl⟩ := h
  have h₁ := Text.length_of_cut? hc
  have h₂ := length_optional_le '!' t
  have h₃ := length_optional_le ']' (optional '!' t).2
  simp only [List.length_cons, List.length_nil] at h₁
  omega

/-- The items of a pattern. -/
def items : Text → List GlobItem
  | [] => []
  | '*' :: t => .star :: items t
  | '?' :: t => .any :: items t
  | '[' :: t =>
    match _h : cutSet? t with
    | none => .char '[' :: items t
    | some (s, rest) => setItem s :: items rest
  | c :: t => .char c :: items t
termination_by t => t.length
decreasing_by
  all_goals simp_wf
  have := length_of_cutSet? _h
  omega

/-- The pattern fits the whole text. -/
def fits (pattern t : Text) : Bool := accept (items pattern) t

end Glob

end CodeIndex
