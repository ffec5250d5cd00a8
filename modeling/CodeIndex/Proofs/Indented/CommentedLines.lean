import CodeIndex.Indented.Lookahead
import CodeIndex.Proofs.Text.Lines
import CodeIndex.Proofs.Text.TripleQuote

/-!
# Words over lines with comments

`breakLines` lays words out over lines: between two words there are blanks, or a line break with
comments before and after it and perhaps lines that hold no word. Every line that comes out is a
plain text with what ends a line (`exists_code_of_mem_breakLines`), so a reader that cuts the
comments off and joins the lines sees the words with gaps of blanks between them
(`join_uncomment_breakLines`). A reader that looks for a closing parenthesis outside of comments
stops at the last line (`exists_breakLines_closing`, `importChunks_append`).
-/

namespace CodeIndex.Indented

open Text

/-! ## Plain texts and comments -/

/-- Neither a hash nor a quote stands in the text, and it ends no line. -/
def Plain (t : Text) : Prop := ∀ c ∈ t, c ≠ '#' ∧ (c ≠ '"' ∧ c ≠ '\'') ∧ isLineBoundary c = false

instance (t : Text) : Decidable (Plain t) :=
  inferInstanceAs (Decidable (∀ c ∈ t, c ≠ '#' ∧ (c ≠ '"' ∧ c ≠ '\'') ∧ isLineBoundary c = false))

theorem plain_append {t u : Text} : Plain (t ++ u) ↔ Plain t ∧ Plain u := List.forall_mem_append

/-- A comment starts behind the first character of a line, if that is no hash. -/
theorem uncomment_cons {c : Char} (hc : c ≠ '#') (t : Text) :
    uncomment (c :: t) = c :: uncomment t := by
  have hne {u : Text} (hu : '#' ∉ u) : '#' ∉ c :: u := by
    rw [List.mem_cons, not_or]
    exact ⟨Ne.symm hc, hu⟩
  by_cases hhash : '#' ∈ t
  · obtain ⟨a, b, rfl, ha⟩ := List.eq_append_cons_of_mem hhash
    rw [uncomment, uncomment, before, before, ← List.cons_append, cut?_char (hne ha), cut?_char ha]
    rfl
  · rw [uncomment, uncomment, before_char_of_not_mem (hne hhash), before_char_of_not_mem hhash]

/-- Blanks on one line. -/
structure Blanks where
  text : Text
  blank : ∀ c ∈ text, isBlank c = true
  singleLine : SingleLine text

/-- A number of spaces. -/
def Blanks.spaces (n : Nat) : Blanks where
  text := List.replicate n ' '
  blank := isBlank_of_mem_replicate n
  singleLine := by
    intro c hc
    rw [List.eq_of_mem_replicate hc]
    decide

theorem Blanks.plain (b : Blanks) : Plain b.text := by
  intro c hc
  have hblank := b.blank c hc
  refine ⟨?_, ⟨?_, ?_⟩, b.singleLine c hc⟩ <;>
  · rintro rfl
    exact absurd hblank (by decide)

/-- A comment, behind its hash. -/
structure Comment where
  text : Text
  singleLine : SingleLine text
  noString : ∀ q : Delimiter, ¬ q.chars <:+: text

/-- What ends a line: blanks, and perhaps a comment. -/
structure LineEnd where
  space : Blanks
  comment : Option Comment := none

namespace LineEnd

variable (e : LineEnd)

def text : Text := e.space.text ++ e.comment.elim [] fun c => '#' :: c.text

variable {code : Text} (h : Plain code)
include h

/-- The comment is cut off, and nothing else. -/
theorem uncomment_append : uncomment (code ++ e.text) = code ++ e.space.text := by
  have hhash : '#' ∉ code ++ e.space.text := by
    intro hmem
    exact (plain_append.2 ⟨h, e.space.plain⟩ '#' hmem).1 rfl
  rw [uncomment, text, ← List.append_assoc]
  cases e.comment with
  | none => rw [Option.elim_none, List.append_nil, before_char_of_not_mem hhash]
  | some c =>
    rw [Option.elim_some, before, cut?_char hhash]
    rfl

theorem cutDelimiter?_append : cutDelimiter? (code ++ e.text) = none := by
  have hplain : QuoteFree (code ++ e.space.text) := by
    intro c hc
    exact (plain_append.2 ⟨h, e.space.plain⟩ c hc).2.1
  rw [text, ← List.append_assoc]
  cases e.comment with
  | none =>
    rw [Option.elim_none, List.append_nil]
    exact cutDelimiter?_of_quoteFree hplain
  | some c =>
    rw [Option.elim_some, cutDelimiter?_eq_none_iff]
    intro q hq
    -- no delimiter holds a hash
    have hhash : '#' ∉ q.chars := by cases q <;> decide
    rcases (infix_append_cons_iff hhash).1 hq with hq | hq
    · exact cutDelimiter?_eq_none_iff.1 (cutDelimiter?_of_quoteFree hplain) q hq
    · exact c.noString q hq

theorem singleLine_append : SingleLine (code ++ e.text) := by
  have hcode : SingleLine code := fun c hc => (h c hc).2.2
  have hcomment : SingleLine (e.comment.elim [] fun c => '#' :: c.text) := by
    cases e.comment with
    | none => exact singleLine_nil
    | some c => exact singleLine_cons.2 ⟨by decide, c.singleLine⟩
  exact Text.singleLine_append.2 ⟨hcode, Text.singleLine_append.2 ⟨e.space.singleLine, hcomment⟩⟩

end LineEnd

/-! ## Words and lines -/

/-- What separates two words of a list: blanks, or a line break and perhaps lines without words. -/
inductive ListGap where
  | blanks (inside : Blanks)
  | lineBreak (behind : LineEnd) (empty : List LineEnd) (indent : Blanks)

/-- The gap when lines are joined without their comments. -/
def ListGap.text : ListGap → Text
  | blanks inside => inside.text
  | lineBreak behind empty indent =>
    behind.space.text ++ (' ' :: ((empty.map (·.space.text)).flatMap (· ++ [' ']) ++ indent.text))

theorem ListGap.isBlank_of_mem_text (g : ListGap) : ∀ c ∈ g.text, isBlank c = true := by
  cases g with
  | blanks inside => exact inside.blank
  | lineBreak behind empty indent =>
    have hspace : isBlank ' ' = true := by decide
    intro c hc
    simp only [text, List.mem_append, List.mem_cons, List.mem_flatMap, List.mem_map,
      List.not_mem_nil, or_false] at hc
    rcases hc with hc | rfl | ⟨_, ⟨e, -, rfl⟩, hc | rfl⟩ | hc
    · exact behind.space.blank c hc
    · exact hspace
    · exact e.space.blank c hc
    · exact hspace
    · exact indent.blank c hc

/-- The lines that words make after the beginning of a line, each word with the gap before it. -/
def breakLines : (line : Text) → List (ListGap × Text) → LineEnd → List Text
  | line, [], e => [line ++ e.text]
  | line, (.blanks inside, word) :: words, e => breakLines (line ++ (inside.text ++ word)) words e
  | line, (.lineBreak behind empty indent, word) :: words, e =>
    (line ++ behind.text) :: (empty.map LineEnd.text ++ breakLines (indent.text ++ word) words e)

/-- The words with their gaps on one line. -/
def joined (words : List (ListGap × Text)) : Text := words.flatMap fun (g, word) => g.text ++ word

theorem joined_cons (g : ListGap) (word : Text) (words : List (ListGap × Text)) :
    joined ((g, word) :: words) = g.text ++ (word ++ joined words) := by
  rw [joined, List.flatMap_cons, List.append_assoc]
  rfl

/-- The words are laid out behind any beginning of the first line. -/
theorem exists_breakLines (line : Text) (words : List (ListGap × Text)) (e : LineEnd) :
    ∃ more following, ∀ head,
      breakLines (head ++ line) words e = (head ++ (line ++ more)) :: following := by
  induction words generalizing line with
  | nil =>
    refine ⟨e.text, [], ?_⟩
    intro head
    rw [breakLines, List.append_assoc]
  | cons word words ih =>
    obtain ⟨g, word⟩ := word
    cases g with
    | blanks inside =>
      obtain ⟨more, following, hlines⟩ := ih (line ++ (inside.text ++ word))
      refine ⟨inside.text ++ word ++ more, following, ?_⟩
      intro head
      rw [breakLines, List.append_assoc head, hlines, List.append_assoc line]
    | lineBreak behind empty indent =>
      refine ⟨behind.text, empty.map LineEnd.text ++ breakLines (indent.text ++ word) words e, ?_⟩
      intro head
      rw [breakLines, List.append_assoc]

/-- Without line breaks there is one line. -/
theorem breakLines_of_blanks {words : List (ListGap × Text)} (h : ∀ w ∈ words, ∃ b, w.1 = .blanks b)
    (line : Text) (e : LineEnd) : breakLines line words e = [line ++ (joined words ++ e.text)] := by
  induction words generalizing line with
  | nil => rfl
  | cons word words ih =>
    obtain ⟨⟨inside, hword⟩, hwords⟩ := List.forall_mem_cons.1 h
    obtain ⟨g, word⟩ := word
    obtain rfl : g = .blanks inside := hword
    rw [breakLines, ih hwords, joined_cons, ListGap.text]
    simp

section Lines

variable {words : List (ListGap × Text)} (hwords : ∀ w ∈ words, Plain w.2) {line : Text}
  (hline : Plain line) (e : LineEnd)
include hwords hline

/-- Every line is a plain text and what ends a line. -/
theorem exists_code_of_mem_breakLines :
    ∀ l ∈ breakLines line words e, ∃ code e', l = code ++ LineEnd.text e' ∧ Plain code := by
  induction words generalizing line with
  | nil =>
    intro l hl
    obtain rfl := List.mem_singleton.1 hl
    exact ⟨line, e, rfl, hline⟩
  | cons word words ih =>
    obtain ⟨g, word⟩ := word
    obtain ⟨hword, hrest⟩ := List.forall_mem_cons.1 hwords
    cases g with
    | blanks inside =>
      exact ih hrest (plain_append.2 ⟨hline, plain_append.2 ⟨inside.plain, hword⟩⟩)
    | lineBreak behind empty indent =>
      intro l hl
      rw [breakLines, List.mem_cons, List.mem_append, List.mem_map] at hl
      rcases hl with rfl | ⟨e', -, rfl⟩ | hl
      · exact ⟨line, behind, rfl, hline⟩
      · exact ⟨[], e', rfl, List.forall_mem_nil _⟩
      · exact ih hrest (plain_append.2 ⟨indent.plain, hword⟩) l hl

/-- **Joining the lines without their comments turns each break into blanks.** -/
theorem join_uncomment_breakLines :
    join [' '] ((breakLines line words e).map uncomment) =
      line ++ (joined words ++ e.space.text) := by
  induction words generalizing line with
  | nil =>
    rw [breakLines, List.map_singleton, join_singleton, e.uncomment_append hline]
    rfl
  | cons word words ih =>
    obtain ⟨g, word⟩ := word
    obtain ⟨hword, hrest⟩ := List.forall_mem_cons.1 hwords
    rw [joined_cons]
    cases g with
    | blanks inside =>
      have hnext : Plain (line ++ (inside.text ++ word)) :=
        plain_append.2 ⟨hline, plain_append.2 ⟨inside.plain, hword⟩⟩
      rw [breakLines, ih hrest hnext, ListGap.text]
      simp
    | lineBreak behind empty indent =>
      have hnext := ih hrest (plain_append.2 ⟨indent.plain, hword⟩)
      have hempty : (empty.map LineEnd.text).map uncomment = empty.map (·.space.text) := by
        rw [List.map_map]
        apply List.map_congr_left
        intro e' _
        exact e'.uncomment_append (List.forall_mem_nil _)
      have hne : (breakLines (indent.text ++ word) words e).map uncomment ≠ [] := by
        obtain ⟨more, following, hlines⟩ := exists_breakLines (indent.text ++ word) words e
        rw [← List.nil_append (indent.text ++ word), hlines]
        exact List.cons_ne_nil _ _
      rw [breakLines, List.map_cons, List.map_append, hempty, behind.uncomment_append hline,
        ← List.cons_append, join_append hne, hnext, ListGap.text]
      simp

/-- **The closing parenthesis stands on the last line, and on no other.** -/
theorem exists_breakLines_closing (hparen : ')' ∉ line) (hparens : ∀ w ∈ words, ')' ∉ w.2)
    (g : ListGap) : ∃ init last, breakLines line (words ++ [(g, [')'])]) e = init ++ [last] ∧
      (∀ l ∈ init, ')' ∉ uncomment l) ∧ ')' ∈ uncomment last := by
  have hblank (b : Blanks) : ')' ∉ b.text := fun h => absurd (b.blank ')' h) (by decide)
  have hend (e' : LineEnd) {code : Text} (hcode : Plain code) (hc : ')' ∉ code) :
      ')' ∉ uncomment (code ++ e'.text) := by
    rw [e'.uncomment_append hcode, List.mem_append]
    exact not_or.2 ⟨hc, hblank e'.space⟩
  have hempty (empty : List LineEnd) : ∀ l ∈ empty.map LineEnd.text, ')' ∉ uncomment l := by
    rw [List.forall_mem_map]
    intro e' _
    exact hend e' (List.forall_mem_nil _) List.not_mem_nil
  have hclose {code : Text} (hcode : Plain code) (hc : ')' ∈ code) :
      ')' ∈ uncomment (code ++ e.text) := by
    rw [e.uncomment_append hcode]
    exact List.mem_append_left _ hc
  have hplain : Plain [')'] := by decide
  induction words generalizing line with
  | nil =>
    cases g with
    | blanks inside =>
      refine ⟨[], line ++ (inside.text ++ [')']) ++ e.text, rfl, List.forall_mem_nil _,
        hclose ?_ (by simp)⟩
      exact plain_append.2 ⟨hline, plain_append.2 ⟨inside.plain, hplain⟩⟩
    | lineBreak behind empty indent =>
      refine ⟨(line ++ behind.text) :: empty.map LineEnd.text, indent.text ++ [')'] ++ e.text, rfl,
        ?_, hclose (plain_append.2 ⟨indent.plain, hplain⟩) (by simp)⟩
      exact List.forall_mem_cons.2 ⟨hend behind hline hparen, hempty empty⟩
  | cons word words ih =>
    obtain ⟨g', word⟩ := word
    obtain ⟨hword, hrest⟩ := List.forall_mem_cons.1 hwords
    obtain ⟨hp, hps⟩ := List.forall_mem_cons.1 hparens
    cases g' with
    | blanks inside =>
      refine ih hrest (plain_append.2 ⟨hline, plain_append.2 ⟨inside.plain, hword⟩⟩) ?_ hps
      simp only [List.mem_append, not_or]
      exact ⟨hparen, hblank inside, hp⟩
    | lineBreak behind empty indent =>
      have hnext : ')' ∉ indent.text ++ word := by
        rw [List.mem_append]
        exact not_or.2 ⟨hblank indent, hp⟩
      obtain ⟨init, last, hlines, hinit, hlast⟩ :=
        ih hrest (plain_append.2 ⟨indent.plain, hword⟩) hnext hps
      refine ⟨(line ++ behind.text) :: (empty.map LineEnd.text ++ init), last, ?_, ?_, hlast⟩
      · rw [List.cons_append, breakLines, hlines]
        simp
      · refine List.forall_mem_cons.2 ⟨hend behind hline hparen, ?_⟩
        exact List.forall_mem_append.2 ⟨hempty empty, hinit⟩

end Lines

/-- The look-ahead takes the lines up to the first one that closes the list. -/
theorem importChunks_append {init : List Text} {last : Text} (hinit : ∀ l ∈ init, ')' ∉ uncomment l)
    (hlast : ')' ∈ uncomment last) (done rest : List Text) :
    importChunks done (init ++ last :: rest) = done.reverse ++ (init ++ [last]).map uncomment := by
  induction init generalizing done with
  | nil =>
    rw [List.nil_append, importChunks]
    simp [hlast]
  | cons line init ih =>
    obtain ⟨hline, hinit⟩ := List.forall_mem_cons.1 hinit
    rw [List.cons_append, importChunks]
    simp [hline, ih hinit]

end CodeIndex.Indented
