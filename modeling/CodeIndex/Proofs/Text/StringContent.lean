import CodeIndex.Proofs.Text.OpenString

/-!
# The text of a string over several lines

A string over several lines (`LongString`) opens behind a delimiter that does not occur again on its
line, goes on over lines without that delimiter, and closes on a line that has it. A closed tracker,
whatever it has read before, is open from the first of these lines to the last but one, and has
completed the text of the string behind the last one (`feedAll_longString`).
-/

namespace CodeIndex.Text

/-! ## Counting occurrences -/

/-- How often a text that is not empty occurs in another, from left to right and without overlap. -/
def occurrences (needle t : Text) : Nat := (splitOn needle t).length - 1

section Occurrences

variable {needle t a b : Text} (hne : needle ≠ [])
include hne

theorem splitOn_of_cut? (h : cut? needle t = some (a, b)) :
    splitOn needle t = a :: splitOn needle b := by
  rw [splitOn, dif_neg hne]
  split
  · next hnone => exact absurd (h.symm.trans hnone) (by simp)
  · next a' b' hsome =>
    obtain ⟨rfl, rfl⟩ := Prod.mk.inj (Option.some.inj (h.symm.trans hsome))
    rfl

/-- What occurs once does not occur behind its first occurrence. -/
theorem cut?_eq_none_of_occurrences (h : cut? needle t = some (a, b))
    (hone : occurrences needle t = 1) : cut? needle b = none := by
  rw [occurrences, splitOn_of_cut? hne h, List.length_cons, Nat.add_sub_cancel] at hone
  by_contra hsome
  obtain ⟨⟨a', b'⟩, hcut⟩ := Option.ne_none_iff_exists'.1 hsome
  have hpos : 0 < (splitOn needle b').length := by
    rw [List.length_pos_iff, splitOn, dif_neg hne]
    split <;> exact List.cons_ne_nil _ _
  rw [splitOn_of_cut? hne hcut, List.length_cons] at hone
  omega

end Occurrences

/-! ## Strings over several lines -/

/-- The lines of a string that does not end on the line where it opens. -/
structure LongString where
  delimiter : Delimiter
  /-- What stands before the delimiter on the first line. -/
  head : Text
  /-- What stands behind the delimiter on the first line. -/
  tail : Text
  /-- The lines between the first and the last. -/
  body : List Text
  closing : Text
  /-- No delimiter starts further left on the first line. -/
  first : ∀ (u : Text) (d : Delimiter),
    u ++ d.chars <+: head ++ (delimiter.chars ++ tail) → head.length ≤ u.length
  once : occurrences delimiter.chars (head ++ (delimiter.chars ++ tail)) = 1
  inside : ∀ line ∈ body, ¬ delimiter.chars <:+: line
  closes : delimiter.chars <:+: closing

namespace LongString

variable (m : LongString)

/-- The first line. -/
def opening : Text := m.head ++ (m.delimiter.chars ++ m.tail)

/-- All lines of the string, with what stands around it on the first and on the last one. -/
def lines : List Text := m.opening :: (m.body ++ [m.closing])

/-- What stands between the delimiters, line by line and trimmed, with single spaces between the
lines that are not empty. -/
def content : Text :=
  join [' ']
    (((m.tail :: (m.body ++ [before m.delimiter.chars m.closing])).map trim).filter (· ≠ []))

theorem cutDelimiter?_opening : cutDelimiter? m.opening = some (m.head, m.delimiter, m.tail) :=
  cutDelimiter?_eq_some_iff.2 ⟨rfl, m.first⟩

theorem cut?_tail : cut? m.delimiter.chars m.tail = none :=
  cut?_eq_none_of_occurrences m.delimiter.chars_ne_nil
    (cut?_of_cutDelimiter? m.cutDelimiter?_opening) m.once

theorem exists_cut?_closing :
    ∃ rest, cut? m.delimiter.chars m.closing = some (before m.delimiter.chars m.closing, rest) := by
  obtain ⟨⟨head, rest⟩, hcut⟩ := Option.isSome_iff_exists.1 (contains_eq_true_iff.2 m.closes)
  exact ⟨rest, by rw [before, hcut]; rfl⟩

/-- The lines of a string up to one of them. -/
theorem cases_of_isPrefix {read : List Text} (h : read <+: m.lines) :
    read = [] ∨ (∃ body, read = m.opening :: body ∧ body <+: m.body) ∨ read = m.lines := by
  rcases List.prefix_cons_iff.1 h with rfl | ⟨body, rfl, hbody⟩
  · exact .inl rfl
  · rcases List.prefix_concat_iff.1 hbody with rfl | hbody
    · exact .inr (.inr rfl)
    · exact .inr (.inl ⟨body, rfl, hbody⟩)

theorem opening_cons_ne_lines {body : List Text} (h : body <+: m.body) :
    m.opening :: body ≠ m.lines := by
  intro heq
  have hlength := congrArg List.length (List.cons.inj heq).2
  have hle := h.length_le
  rw [List.length_append, List.length_singleton] at hlength
  omega

end LongString

namespace StringTracker

variable {s : StringTracker} {q : Delimiter} {line : Text}

/-- **Inside of a string, the tracker keeps the trimmed lines.** -/
theorem feedAll_inside (hs : s.quote = some q) {body : List Text}
    (hbody : ∀ line ∈ body, ¬ q.chars <:+: line) :
    s.feedAll body = { s with parts := (body.map trim).reverse ++ s.parts } := by
  induction body using List.reverseRecOn with
  | nil => rfl
  | append_singleton body line ih =>
    obtain ⟨hbody, hline⟩ := List.forall_mem_append.1 hbody
    have hfeed := feed_inside (s := { s with parts := (body.map trim).reverse ++ s.parts }) hs
      (hline line List.mem_cons_self)
    rw [feedAll_append_singleton, ih hbody, hfeed]
    simp

/-- Spaces at the ends of joined parts would come from the parts. -/
theorem joinParts_reverse (parts : List Text) :
    joinParts (parts.map trim).reverse = join [' '] ((parts.map trim).filter (· ≠ [])) := by
  rw [joinParts, List.reverse_reverse]
  by_cases hne : (parts.map trim).filter (· ≠ []) = []
  · rw [hne]
    rfl
  · have hsolid : ∀ p ∈ (parts.map trim).filter (· ≠ []), Solid p := by
      intro p hp
      obtain ⟨hmem, hne⟩ := List.mem_filter.1 hp
      obtain ⟨p, -, rfl⟩ := List.mem_map.1 hmem
      exact .of_trim_ne_nil (by simpa using hne)
    simpa using (Solid.join hne hsolid [' ']).trim_eq (List.forall_mem_nil _)
      (List.forall_mem_nil _)

section LongString

variable (hs : s.quote = none) (m : LongString)
include hs

/-- A tracker that has read the first line of a string and some lines of its body. -/
theorem feedAll_opening {body : List Text} (hbody : body <+: m.body) :
    s.feedAll (m.opening :: body) =
      { s with quote := some m.delimiter, parts := ((m.tail :: body).map trim).reverse } := by
  have hopening := feed_opening hs m.cutDelimiter?_opening m.cut?_tail
  have hinside := feedAll_inside
    (s := { s with quote := some m.delimiter, parts := [trim m.tail] }) rfl
    fun line hline => m.inside line (hbody.subset hline)
  rw [feedAll, List.foldl_cons, hopening]
  rw [feedAll] at hinside
  rw [hinside, List.map_cons, List.reverse_cons]

/-- The last line closes the string. -/
theorem feed_feedAll_closing :
    (s.feedAll (m.opening :: m.body)).feed m.closing = (true, { completed := some m.content }) := by
  obtain ⟨rest, hcut⟩ := m.exists_cut?_closing
  have hclosing := feed_closing
    (s := { s with quote := some m.delimiter, parts := ((m.tail :: m.body).map trim).reverse }) rfl
      hcut
  have hparts :
      (trim (before m.delimiter.chars m.closing) :: ((m.tail :: m.body).map trim).reverse) =
        ((m.tail :: (m.body ++ [before m.delimiter.chars m.closing])).map trim).reverse := by
    simp
  rw [feedAll_opening hs m (List.prefix_refl _), hclosing, hparts, joinParts_reverse,
    LongString.content]

end LongString

end StringTracker

/-- **A string over several lines is followed from its first line to its last.** A closed tracker in
any state takes each of these lines for one of a string; it is open with the delimiter of the string
exactly behind the lines from the first to the last but one, and closed behind the last; and then it
gives the text of the string, once. -/
theorem feedAll_longString {s : StringTracker} (hs : s.quote = none) (m : LongString) :
    (∀ read line, read ++ [line] <+: m.lines → ((s.feedAll read).feed line).1 = true) ∧
      (∀ read, read <+: m.lines →
        ((s.feedAll read).quote = some m.delimiter ↔ read ≠ [] ∧ read ≠ m.lines)) ∧
      (s.feedAll m.lines).quote = none ∧
      (s.feedAll m.lines).takeCompleted.1 = some m.content ∧
      (s.feedAll m.lines).takeCompleted.2.takeCompleted.1 = none := by
  have hopen {body : List Text} (hbody : body <+: m.body) :
      (s.feedAll (m.opening :: body)).quote = some m.delimiter := by
    rw [StringTracker.feedAll_opening hs m hbody]
  have hlast : s.feedAll m.lines = { completed := some m.content } := by
    rw [LongString.lines, ← List.cons_append, StringTracker.feedAll_append_singleton,
      StringTracker.feed_feedAll_closing hs m]
  refine ⟨fun read line h => ?_, fun read h => ?_, ?_, ?_, ?_⟩
  · rw [StringTracker.feed_fst, Bool.or_eq_true]
    rcases m.cases_of_isPrefix ((List.prefix_append read [line]).trans h) with
      rfl | ⟨body, rfl, hbody⟩ | rfl
    · -- the first line opens the string
      obtain rfl : line = m.opening := (List.cons_prefix_cons.1 h).1
      exact .inr (by rw [m.cutDelimiter?_opening]; rfl)
    · exact .inl (by rw [hopen hbody]; rfl)
    · exact absurd h.length_le (by simp)
  · rcases m.cases_of_isPrefix h with rfl | ⟨body, rfl, hbody⟩ | rfl
    · exact iff_of_false (by simp [StringTracker.feedAll, hs]) (by simp)
    · exact iff_of_true (hopen hbody) ⟨List.cons_ne_nil _ _, m.opening_cons_ne_lines hbody⟩
    · exact iff_of_false (by simp [hlast]) (by simp)
  · rw [hlast]
  · rw [hlast]
    rfl
  · rfl

/-- A string with the other delimiter and an empty line in it. -/
def sampleString : LongString where
  delimiter := .double
  head := "x = ".toList
  tail := "  ab\"".toList
  body := [[], "  it has ''' in it ".toList]
  closing := " end\"\"\" + y".toList
  first := by
    have hcut : cutDelimiter? "x = \"\"\"  ab\"".toList =
        some ("x = ".toList, .double, "  ab\"".toList) := by decide
    exact (cutDelimiter?_eq_some_iff.1 hcut).2
  once := by decide +kernel
  inside := by decide
  closes := by decide

/-- A closed tracker with parts of an old string and with a string that was not taken. -/
def usedTracker : StringTracker := { parts := ["old".toList], completed := some "before".toList }

theorem feedAll_longString_sampleString :
    usedTracker.quote = none ∧
      (usedTracker.feedAll sampleString.lines).takeCompleted.1 =
        some "ab\" it has ''' in it end".toList ∧
      (usedTracker.feedAll sampleString.lines).takeCompleted.2.takeCompleted.1 = none := by
  have hclosed : usedTracker.quote = none := rfl
  have hcontent : sampleString.content = "ab\" it has ''' in it end".toList := by decide
  obtain ⟨-, -, -, htaken, hforgotten⟩ := feedAll_longString hclosed sampleString
  exact ⟨hclosed, hcontent ▸ htaken, hforgotten⟩

end CodeIndex.Text
