import CodeIndex.Text.Basic

/-!
# Searching a text for a recogniser

A recogniser reads at one place of a text: it is given the character before that place and what
follows, and answers with a value and the rest of the text, or not at all. `search?` finds the
leftmost place at which a recogniser succeeds, `searchAll` all of them from left to right without
overlap. A hit tells where the recognised text starts and ends.
-/

namespace CodeIndex.Text

/-- Reads a value at a place of a text, from the character before it and the text after it; the
second component is what it leaves unread. -/
abbrev Recogniser (α : Type) := (before : Option Char) → Text → Option (α × Text)

/-- A recognised piece of a text: its value, the positions at which it starts and ends, and the text
after it. -/
structure Hit (α : Type) where
  value : α
  start : Nat
  stop : Nat
  rest : Text

/-- The hit of a recogniser at one place. -/
def hitAt? {α : Type} (r : Recogniser α) (before : Option Char) (pos : Nat) (t : Text) :
    Option (Hit α) :=
  (r before t).map fun (a, rest) => ⟨a, pos, pos + (t.length - rest.length), rest⟩

/-- The leftmost hit at or after position `pos`, where `t` starts. -/
def searchFrom? {α : Type} (r : Recogniser α) : (before : Option Char) → (pos : Nat) → Text →
    Option (Hit α)
  | before, pos, [] => hitAt? r before pos []
  | before, pos, c :: t =>
    match hitAt? r before pos (c :: t) with
    | some hit => some hit
    | none => searchFrom? r (some c) (pos + 1) t

/-- The leftmost hit in a text. -/
def search? {α : Type} (r : Recogniser α) (t : Text) : Option (Hit α) := searchFrom? r none 0 t

/-- The leftmost hit that starts at or after a position. -/
def searchFromPos? {α : Type} (r : Recogniser α) (pos : Nat) (t : Text) : Option (Hit α) :=
  if pos ≤ t.length then
    searchFrom? r (if pos = 0 then none else (t.drop (pos - 1)).head?) pos (t.drop pos)
  else none

/-- The hits from left to right, each after the end of the one before; `skip` characters of the text
still belong to the last hit. -/
def searchAllFrom {α : Type} (r : Recogniser α) :
    (hits : List (Hit α)) → (skip : Nat) → (before : Option Char) → (pos : Nat) → Text →
    List (Hit α)
  | hits, _, _, _, [] => hits.reverse
  | hits, skip + 1, _, pos, c :: t => searchAllFrom r hits skip (some c) (pos + 1) t
  | hits, 0, before, pos, c :: t =>
    match hitAt? r before pos (c :: t) with
    | some hit => searchAllFrom r (hit :: hits) (hit.stop - pos - 1) (some c) (pos + 1) t
    | none => searchAllFrom r hits 0 (some c) (pos + 1) t

/-- All hits in a text from left to right, without overlap. -/
def searchAll {α : Type} (r : Recogniser α) (t : Text) : List (Hit α) :=
  searchAllFrom r [] 0 none 0 t

/-- The text has a hit. -/
def occurs {α : Type} (r : Recogniser α) (t : Text) : Bool := (search? r t).isSome

/-- The place after `before` starts a line: it is the start of the text or follows a line feed. -/
def startsLine (before : Option Char) : Bool := before = none || before = some '\n'

end CodeIndex.Text
