import CodeIndex.Proofs.Indented.CommentedLines
import CodeIndex.Proofs.Indented.Unclosed
import CodeIndex.Proofs.Path

/-!
# Imports over several lines

An import may be written on one line, or with its names in parentheses and line breaks after the
opening parenthesis, after the commas and before the closing parenthesis, with comments and with
lines that hold no name. `ImportLayout` is an import with such a layout, and `scan_importLines` says
that all of them are read alike: the names, the source and the first line come out as they were put
in, and the scan goes on behind the last line.

The reader knows nothing of names. It takes lines until the list is closed (`lookahead_lines`),
joins them without their comments, and cuts what it has at the commas, where blanks and parentheses
around a name do not matter (`importedNames_nameList`).
-/

namespace CodeIndex.Indented

open Text

variable {options : OutlineOptions} {s : ScanState} {n : Nat}

/-! ## Names -/

/-- Words with dots between them or before them. -/
structure Dotted where
  text : Text
  nonempty : text ≠ []
  dotted : ∀ c ∈ text, isWord c = true ∨ c = '.'

namespace Dotted

variable (d : Dotted)

/-- What holds of word characters and of a dot. -/
theorem forall_mem {p : Char → Prop} (hword : ∀ c, isWord c = true → p c) (hdot : p '.') :
    ∀ c ∈ d.text, p c := by
  intro c hc
  rcases d.dotted c hc with h | rfl
  · exact hword c h
  · exact hdot

theorem not_mem {c : Char} (hword : isWord c = false) (hdot : c ≠ '.') : c ∉ d.text := by
  intro hc
  rcases d.dotted c hc with h | h
  · rw [hword] at h
    exact Bool.noConfusion h
  · exact hdot h

theorem isBlank_of_mem : ∀ c ∈ d.text, isBlank c = false :=
  d.forall_mem (fun _ => isBlank_of_isWord) (by decide)

theorem solid : Solid d.text := .of_forall d.nonempty d.isBlank_of_mem

theorem plain : Plain d.text := by
  refine d.forall_mem (fun c hc => ?_) (by decide)
  refine ⟨?_, ⟨?_, ?_⟩, isLineBoundary_of_isWord hc⟩ <;>
  · rintro rfl
    exact absurd hc (by decide)

end Dotted

/-- An imported name, perhaps under another name. -/
structure Imported where
  name : Dotted
  rename : Option Dotted := none

namespace Imported

variable (a : Imported)

def text : Text := a.name.text ++ a.rename.elim [] fun b => " as ".toList ++ b.text

theorem plain : Plain a.text := by
  refine plain_append.2 ⟨a.name.plain, ?_⟩
  cases a.rename with
  | none => exact List.forall_mem_nil _
  | some b => exact plain_append.2 ⟨by decide, b.plain⟩

theorem solid : Solid a.text := by
  rw [text]
  cases a.rename with
  | none =>
    rw [Option.elim_none, List.append_nil]
    exact a.name.solid
  | some b => exact a.name.solid.append b.solid " as ".toList

theorem not_mem {c : Char} (hword : isWord c = false) (hc : c ∉ ". as".toList) : c ∉ a.text := by
  have hdot : c ≠ '.' := by
    rintro rfl
    exact hc (by decide)
  have has : c ∉ " as ".toList := fun h => hc ((by decide : " as ".toList ⊆ ". as".toList) h)
  rw [text, List.mem_append, not_or]
  refine ⟨a.name.not_mem hword hdot, ?_⟩
  cases a.rename with
  | none => exact List.not_mem_nil
  | some b =>
    rw [Option.elim_some, List.mem_append, not_or]
    exact ⟨has, b.not_mem hword hdot⟩

/-- The other name is cut off. -/
theorem before_as : before " as ".toList a.text = a.name.text := by
  have hblank : ' ' ∉ a.name.text := a.name.not_mem (by decide) (by decide)
  rw [text]
  cases a.rename with
  | none =>
    have hnone : cut? " as ".toList a.name.text = none := by
      rw [cut?_eq_none_iff]
      exact fun h => hblank (h.subset (by decide))
    rw [Option.elim_none, List.append_nil, before, hnone]
    rfl
  | some b =>
    have hcut : cut? " as ".toList (a.name.text ++ " as ".toList ++ b.text) =
        some (a.name.text, b.text) :=
      cut?_append_cons hblank b.text
    rw [Option.elim_some, before, ← List.append_assoc, hcut]
    rfl

end Imported

/-- Blanks and parentheses, which the reader of names does not tell apart. -/
def IsFiller (t : Text) : Prop := ∀ c ∈ t, isBlank c = true ∨ c = '(' ∨ c = ')'

theorem isFiller_of_isBlank {t : Text} (h : ∀ c ∈ t, isBlank c = true) : IsFiller t :=
  fun c hc => .inl (h c hc)

/-- The text with its parentheses blanked out. -/
def blankParens (t : Text) : Text := t.map fun c => if c = '(' ∨ c = ')' then ' ' else c

theorem importedNames_eq (t : Text) : importedNames t =
    ((splitChar ',' (blankParens t)).map fun p => trim (before " as ".toList (trim p))).filter
    (· ≠ []) :=
  rfl

theorem blankParens_append (t u : Text) : blankParens (t ++ u) = blankParens t ++ blankParens u :=
  List.map_append

theorem IsFiller.isBlank_of_mem_blankParens {t : Text} (h : IsFiller t) :
    ∀ c ∈ blankParens t, isBlank c = true := by
  rw [blankParens, List.forall_mem_map]
  intro c hc
  split
  · decide
  · next hparen => exact (h c hc).resolve_right hparen

theorem not_mem_blankParens {t : Text} (h : ',' ∉ t) : ',' ∉ blankParens t := by
  rw [blankParens, List.mem_map]
  rintro ⟨c, hc, heq⟩
  split at heq
  · exact absurd heq (by decide)
  · exact h (heq ▸ hc)

theorem Imported.blankParens_text (a : Imported) : blankParens a.text = a.text := by
  have hopen : '(' ∉ a.text := a.not_mem (by decide) (by decide)
  have hclose : ')' ∉ a.text := a.not_mem (by decide) (by decide)
  have hself : ∀ c ∈ a.text, (if c = '(' ∨ c = ')' then ' ' else c) = c := by
    intro c hc
    refine if_neg ?_
    rintro (rfl | rfl)
    · exact hopen hc
    · exact hclose hc
  exact (List.map_congr_left hself).trans (List.map_id a.text)

/-- What stands before a comma is read on its own. -/
theorem importedNames_append_comma {t : Text} (h : ',' ∉ t) (rest : Text) :
    importedNames (t ++ ',' :: rest) = importedNames t ++ importedNames rest := by
  have hcomma := not_mem_blankParens h
  have hrest : blankParens (',' :: rest) = ',' :: blankParens rest := rfl
  have hone : splitChar ',' (blankParens t) = [blankParens t] := splitCharFrom_of_not_mem hcomma
  rw [importedNames_eq, importedNames_eq t, importedNames_eq rest, blankParens_append, hrest,
    splitChar_append hcomma, hone, ← List.singleton_append, List.map_append, List.filter_append]

theorem importedNames_of_not_mem {t : Text} (h : ',' ∉ t) :
    importedNames t = [trim (before " as ".toList (trim (blankParens t)))].filter (· ≠ []) := by
  have hone : splitChar ',' (blankParens t) = [blankParens t] :=
    splitCharFrom_of_not_mem (not_mem_blankParens h)
  rw [importedNames_eq, hone]
  rfl

theorem IsFiller.not_mem {t : Text} (h : IsFiller t) : ',' ∉ t := by
  intro hc
  rcases h ',' hc with hc | hc | hc
  · exact absurd hc (by decide)
  · exact absurd hc (by decide)
  · exact absurd hc (by decide)

theorem importedNames_filler {t : Text} (h : IsFiller t) : importedNames t = [] := by
  have hnone : before " as ".toList [] = [] := rfl
  rw [importedNames_of_not_mem h.not_mem, trim_eq_nil h.isBlank_of_mem_blankParens, hnone]
  rfl

/-- **Between blanks and parentheses, a name is read without its other name.** -/
theorem importedNames_imported (a : Imported) {t u : Text} (ht : IsFiller t) (hu : IsFiller u) :
    importedNames (t ++ (a.text ++ u)) = [a.name.text] := by
  have hcomma : ',' ∉ t ++ (a.text ++ u) := by
    simp only [List.mem_append, not_or]
    exact ⟨ht.not_mem, a.not_mem (by decide) (by decide), hu.not_mem⟩
  have htrim : trim a.name.text = a.name.text := by
    have := a.name.solid.trim_eq (List.forall_mem_nil _) (List.forall_mem_nil _)
    rwa [List.nil_append, List.append_nil] at this
  rw [importedNames_of_not_mem hcomma, blankParens_append, blankParens_append, a.blankParens_text,
    a.solid.trim_eq ht.isBlank_of_mem_blankParens hu.isBlank_of_mem_blankParens, a.before_as, htrim,
    List.filter_singleton]
  simp [a.name.nonempty]

/-- The names with the commas after them. -/
def nameList (trailingComma : Bool) : List (ListGap × Imported) → List (ListGap × Text)
  | [] => []
  | [(g, a)] => [(g, if trailingComma then a.text ++ [','] else a.text)]
  | (g, a) :: b :: names => (g, a.text ++ [',']) :: nameList trailingComma (b :: names)

section NameList

variable (trailingComma : Bool) (names : List (ListGap × Imported))

/-- What holds of the gaps, and of the names with and without a comma, holds of a list of names. -/
theorem forall_mem_nameList {P : ListGap × Text → Prop}
    (h : ∀ w ∈ names, P (w.1, w.2.text) ∧ P (w.1, w.2.text ++ [','])) :
    ∀ w ∈ nameList trailingComma names, P w := by
  fun_induction nameList trailingComma names with
  | case1 => exact List.forall_mem_nil _
  | case2 g a =>
    obtain ⟨hbare, hcomma⟩ := h (g, a) List.mem_cons_self
    rw [List.forall_mem_singleton]
    split
    · exact hcomma
    · exact hbare
  | case3 g a b names ih =>
    obtain ⟨hfirst, hrest⟩ := List.forall_mem_cons.1 h
    exact List.forall_mem_cons.2 ⟨hfirst.2, ih hrest⟩

theorem plain_of_mem_nameList : ∀ w ∈ nameList trailingComma names, Plain w.2 := by
  apply forall_mem_nameList
  intro w _
  exact ⟨w.2.plain, plain_append.2 ⟨w.2.plain, by decide⟩⟩

theorem not_mem_of_mem_nameList : ∀ w ∈ nameList trailingComma names, ')' ∉ w.2 := by
  apply forall_mem_nameList
  intro w _
  have hparen : ')' ∉ w.2.text := w.2.not_mem (by decide) (by decide)
  refine ⟨hparen, ?_⟩
  rw [List.mem_append, not_or]
  exact ⟨hparen, by decide⟩

/-- **The names are cut at the commas between them**, and nothing is left behind a trailing one. -/
theorem importedNames_nameList {t u : Text} (ht : IsFiller t) (hu : IsFiller u) :
    importedNames (t ++ (joined (nameList trailingComma names) ++ u)) =
      names.map (·.2.name.text) := by
  have hgap {t : Text} (ht : IsFiller t) (g : ListGap) : IsFiller (t ++ g.text) :=
    List.forall_mem_append.2 ⟨ht, isFiller_of_isBlank g.isBlank_of_mem_text⟩
  -- a name is cut off at the comma behind it
  have hcut {t : Text} (ht : IsFiller t) (g : ListGap) (a : Imported) (rest : Text) :
      importedNames (t ++ (g.text ++ (a.text ++ ',' :: rest))) =
        a.name.text :: importedNames rest := by
    have hname := importedNames_imported a (hgap ht g) (List.forall_mem_nil _)
    have hcomma : ',' ∉ t ++ g.text ++ a.text := by
      rw [List.mem_append, not_or]
      exact ⟨(hgap ht g).not_mem, a.not_mem (by decide) (by decide)⟩
    rw [List.append_nil] at hname
    rw [← List.append_assoc, ← List.append_assoc, importedNames_append_comma hcomma, hname,
      List.singleton_append]
  fun_induction nameList trailingComma names generalizing t with
  | case1 => exact importedNames_filler (List.forall_mem_append.2 ⟨ht, hu⟩)
  | case2 g a =>
    rw [joined_cons]
    cases trailingComma with
    | false =>
      have hname := importedNames_imported a (hgap ht g) hu
      simpa [joined] using hname
    | true =>
      have hname := hcut ht g a u
      rw [importedNames_filler hu] at hname
      simpa [joined] using hname
  | case3 g a b names ih =>
    have hname := hcut ht g a (joined (nameList trailingComma (b :: names)) ++ u)
    have hrest := ih (List.forall_mem_nil _)
    rw [List.nil_append] at hrest
    rw [hrest] at hname
    rw [joined_cons]
    simpa using hname

theorem exists_joined_nameList (g : ListGap) (a : Imported) :
    ∃ rest, joined (nameList trailingComma ((g, a) :: names)) = g.text ++ (a.text ++ rest) := by
  cases names with
  | nil =>
    cases trailingComma with
    | false => exact ⟨[], by simp [nameList, joined]⟩
    | true => exact ⟨[','], by simp [nameList, joined]⟩
  | cons b names =>
    refine ⟨',' :: joined (nameList trailingComma (b :: names)), ?_⟩
    rw [nameList, joined_cons]
    simp

end NameList

/-! ## Imports -/

/-- Parentheses around the names of an import. -/
structure Parentheses where
  /-- A comma follows the last name. -/
  trailingComma : Bool
  /-- The gap before the closing parenthesis. -/
  closing : ListGap

/-- An import with its layout. -/
structure ImportLayout where
  /-- The module after `from`, if the import has one. -/
  module? : Option Dotted
  /-- The first name, with the gap before it. -/
  first : ListGap × Imported
  /-- The other names, each with the gap between it and the comma before it. -/
  others : List (ListGap × Imported)
  parentheses : Option Parentheses
  /-- The end of the last line. -/
  behind : LineEnd
  /-- Only in parentheses an import goes on in the next line. -/
  oneLine : parentheses = none → ∀ w ∈ first :: others, ∃ b, w.1 = .blanks b

namespace ImportLayout

variable (L : ImportLayout)

/-- The line up to the names. -/
def head : Text :=
  (L.module?.elim [] fun m => "from ".toList ++ (m.text ++ [' '])) ++ "import ".toList

/-- What stands before the names. -/
def opening : Text := L.parentheses.elim [] fun _ => ['(']

/-- The words after the opening parenthesis. -/
def words : List (ListGap × Text) :=
  L.parentheses.elim (nameList false (L.first :: L.others)) fun p =>
    nameList p.trailingComma (L.first :: L.others) ++ [(p.closing, [')'])]

/-- The lines of the import. -/
def lines : List Text := breakLines (L.head ++ L.opening) L.words L.behind

/-- The record of the import on line `n`: the module or else the first name, and all names. -/
def record (n : Nat) : ImportDecl where
  source := (L.module?.getD L.first.2.name).text
  imports := (L.first :: L.others).map (·.2.name.text)
  line := n

theorem plain_opening : Plain L.opening := by
  unfold opening
  cases L.parentheses with
  | none => exact List.forall_mem_nil _
  | some p =>
    have hopen : Plain ['('] := by decide
    exact hopen

theorem plain_of_mem_words : ∀ w ∈ L.words, Plain w.2 := by
  unfold words
  cases L.parentheses with
  | none => exact plain_of_mem_nameList _ _
  | some p =>
    have hclose : Plain [')'] := by decide
    exact List.forall_mem_append.2 ⟨plain_of_mem_nameList _ _, List.forall_mem_singleton.2 hclose⟩

/-- The names in the joined lines. -/
theorem importedNames_joined :
    importedNames (L.opening ++ (joined L.words ++ L.behind.space.text)) =
      (L.record n).imports := by
  have hspace : IsFiller L.behind.space.text := isFiller_of_isBlank L.behind.space.blank
  unfold opening words
  cases L.parentheses with
  | none => exact importedNames_nameList _ _ (List.forall_mem_nil _) hspace
  | some p =>
    have hopen : IsFiller ['('] := by
      intro c hc
      exact .inr (.inl (List.mem_singleton.1 hc))
    have hend : IsFiller (p.closing.text ++ ')' :: L.behind.space.text) :=
      List.forall_mem_append.2 ⟨isFiller_of_isBlank p.closing.isBlank_of_mem_text,
        List.forall_mem_cons.2 ⟨.inr (.inr rfl), hspace⟩⟩
    have hnames := importedNames_nameList p.trailingComma (L.first :: L.others) hopen hend
    simpa [joined, record] using hnames

/-- The first name stands right behind its gap. -/
theorem exists_joined_words :
    ∃ c t, joined L.words = L.first.1.text ++ c :: t ∧ isBlank c = false ∧ c ≠ '(' := by
  obtain ⟨c, t, hname, hblank⟩ := L.first.2.solid.starts
  have hparen : c ≠ '(' := by
    rintro rfl
    have hmem : '(' ∉ L.first.2.text := L.first.2.not_mem (by decide) (by decide)
    rw [hname] at hmem
    exact hmem List.mem_cons_self
  have hlist (trailingComma : Bool) : ∃ rest,
      joined (nameList trailingComma (L.first :: L.others)) =
        L.first.1.text ++ c :: (t ++ rest) := by
    obtain ⟨rest, hjoined⟩ := exists_joined_nameList trailingComma L.others L.first.1 L.first.2
    exact ⟨rest, by rw [hjoined, hname, List.cons_append]⟩
  unfold words
  cases L.parentheses with
  | none =>
    obtain ⟨rest, hjoined⟩ := hlist false
    exact ⟨c, t ++ rest, hjoined, hblank, hparen⟩
  | some p =>
    obtain ⟨rest, hjoined⟩ := hlist p.trailingComma
    refine ⟨c, t ++ rest ++ (p.closing.text ++ [')']), ?_, hblank, hparen⟩
    rw [Option.elim_some, joined, List.flatMap_append]
    change joined _ ++ _ = _
    rw [hjoined]
    simp

/-- Without parentheses, there are only blanks between the words. -/
theorem exists_blanks_of_mem_words (h : L.parentheses = none) :
    ∀ w ∈ L.words, ∃ b, w.1 = .blanks b := by
  rw [words, h, Option.elim_none]
  apply forall_mem_nameList
  intro w hw
  exact ⟨L.oneLine h w hw, L.oneLine h w hw⟩

/-- Without parentheses, the import is one line. -/
theorem breakLines_of_none (h : L.parentheses = none) :
    breakLines L.opening L.words L.behind = [joined L.words ++ L.behind.text] := by
  rw [breakLines_of_blanks (L.exists_blanks_of_mem_words h), opening, h]
  rfl

theorem importLine?_head (c : Char) (t : Text) :
    importLine? (L.head ++ c :: t) = some (L.module?.map (·.text), c :: t) := by
  unfold head
  cases L.module? with
  | none => rfl
  | some m =>
    have htext : (Option.elim (some m) [] fun m => "from ".toList ++ (m.text ++ [' '])) ++
        "import ".toList ++ c :: t =
          "from".toList ++ ' ' :: (m.text ++ ' ' :: ("import ".toList ++ c :: t)) := by
      simp
    have hblank : blanks1? (' ' :: (m.text ++ ' ' :: ("import ".toList ++ c :: t))) =
        some (m.text ++ ' ' :: ("import ".toList ++ c :: t)) := by
      obtain ⟨d, u, hm, hd⟩ := m.solid.starts
      rw [blanks1?_cons_blank (by decide), hm, List.cons_append, trimLeft_cons hd]
    have hspan : (m.text ++ ' ' :: ("import ".toList ++ c :: t)).span (!isBlank ·) =
        (m.text, ' ' :: ("import ".toList ++ c :: t)) := by
      have hm : ∀ d ∈ m.text, (!isBlank d) = true := by
        intro d hd
        rw [m.isBlank_of_mem d hd]
        rfl
      have hspace : isBlank ' ' = true := by decide
      rw [List.span_eq_takeWhile_dropWhile, List.takeWhile_append_of_pos hm,
        List.dropWhile_append_of_pos hm]
      simp [hspace]
    obtain ⟨d, u, hm, -⟩ := m.solid.starts
    rw [htext, importLine?, after?_append, Option.bind_some, hblank]
    rw [hm] at hspan
    simp only [Option.map_some, hm, hspan]
    rfl

/-- **The look-ahead takes the lines of the import and no other.** -/
theorem lookahead_lines {names : Text} {following : List Text}
    (h : breakLines L.opening L.words L.behind = names :: following) (rest : List Text) :
    (if startsWith ['('] (trimLeft (uncomment names)) && ')' ∉ uncomment names then
      importChunks [] (following ++ rest) else []) = following.map uncomment := by
  cases hform : L.parentheses with
  | none =>
    have hjoin := join_uncomment_breakLines L.plain_of_mem_words L.plain_opening L.behind
    have hone := L.breakLines_of_none hform
    obtain rfl : following = [] := (List.cons.inj (h.symm.trans hone)).2
    have hopens : startsWith ['('] (trimLeft (uncomment names)) = false := by
      obtain ⟨c, t, hwords, hblank, hparen⟩ := L.exists_joined_words
      rw [h, List.map_singleton, join_singleton, opening, hform, Option.elim_none, List.nil_append,
        hwords, List.append_assoc] at hjoin
      rw [hjoin, trimLeft_append L.first.1.isBlank_of_mem_text, List.cons_append,
        trimLeft_cons hblank]
      simp [startsWith, after?_cons_ne (Ne.symm hparen)]
    rw [hopens]
    rfl
  | some p =>
    have hwords :
        L.words = nameList p.trailingComma (L.first :: L.others) ++ [(p.closing, [')'])] := by
      rw [words, hform, Option.elim_some]
    have hopening : L.opening = ['('] := by
      rw [opening, hform]
      rfl
    obtain ⟨init, last, hlines, hinit, hlast⟩ := exists_breakLines_closing
      (plain_of_mem_nameList p.trailingComma (L.first :: L.others)) L.plain_opening L.behind
      (by rw [hopening]; decide) (not_mem_of_mem_nameList _ _) p.closing
    rw [hwords, hlines] at h
    cases init with
    | nil =>
      obtain ⟨rfl, rfl⟩ := List.cons.inj h
      simp [hlast]
    | cons first init =>
      rw [List.cons_append] at h
      obtain ⟨rfl, rfl⟩ := List.cons.inj h
      obtain ⟨hfirst, hinit⟩ := List.forall_mem_cons.1 hinit
      obtain ⟨more, following, hlines'⟩ := exists_breakLines L.opening
        (nameList p.trailingComma (L.first :: L.others) ++ [(p.closing, [')'])]) L.behind
      have hopens : startsWith ['('] (trimLeft (uncomment first)) = true := by
        have hhead := (List.cons.inj (hlines.symm.trans (hlines' []))).1
        rw [hhead, hopening, List.nil_append, List.singleton_append, uncomment_cons (by decide),
          trimLeft_cons (by decide)]
        rfl
      rw [hopens, decide_eq_true hfirst, Bool.and_self, if_pos rfl, List.append_assoc,
        List.singleton_append, importChunks_append hinit hlast]
      rfl

theorem readImport_lines (n : Nat) :
    ∃ c t following, L.lines = (L.head ++ c :: t) :: following ∧
      ∀ rest, readImport (L.module?.map (·.text)) (c :: t) n (following ++ rest) =
        (L.record n, following.length) := by
  obtain ⟨more, following, hlines⟩ := exists_breakLines L.opening L.words L.behind
  have hnames : breakLines L.opening L.words L.behind = (L.opening ++ more) :: following :=
    hlines []
  obtain ⟨c, t, hct⟩ : ∃ c t, L.opening ++ more = c :: t := by
    apply List.exists_cons_of_ne_nil
    intro hnil
    cases hform : L.parentheses with
    | none =>
      obtain ⟨c, t, hwords, -⟩ := L.exists_joined_words
      rw [L.breakLines_of_none hform, hnil, hwords] at hnames
      simp at hnames
    | some p =>
      rw [opening, hform] at hnil
      simp at hnil
  refine ⟨c, t, following, ?_, fun rest => ?_⟩
  · rw [lines, hlines, hct]
  · rw [hct] at hnames
    have hjoin := join_uncomment_breakLines L.plain_of_mem_words L.plain_opening L.behind
    rw [hnames, List.map_cons] at hjoin
    unfold readImport
    dsimp only
    rw [L.lookahead_lines hnames, hjoin, L.importedNames_joined (n := n), List.length_map]
    unfold record
    cases L.module? <;> rfl

/-- Every line of an import is a plain text, and perhaps a comment. -/
theorem exists_code_of_mem_lines :
    ∀ l ∈ L.lines, ∃ code e, l = code ++ LineEnd.text e ∧ Plain code := by
  have hhead : Plain L.head := by
    have himport : Plain "import ".toList := by decide
    unfold head
    cases L.module? with
    | none => exact himport
    | some m =>
      have hfrom : Plain "from ".toList := by decide
      have hspace : Plain [' '] := by decide
      exact plain_append.2 ⟨plain_append.2 ⟨hfrom, plain_append.2 ⟨m.plain, hspace⟩⟩, himport⟩
  exact exists_code_of_mem_breakLines L.plain_of_mem_words (plain_append.2 ⟨hhead, L.plain_opening⟩)
    L.behind

/-- The import is read as a whole, and the scan goes on behind it. -/
theorem reads_lines (hon : options.imports = true) (hs : s.strings.quote = none) (n : Nat) :
    Reads options s n L.lines
      { s.closeClass with latest := none, imports := L.record n :: s.imports } := by
  obtain ⟨c, t, following, hlines, hread⟩ := L.readImport_lines n
  obtain ⟨code, e, hline, hplain⟩ :=
    L.exists_code_of_mem_lines (L.head ++ c :: t) (by simp [hlines])
  have hdelimiter : cutDelimiter? (L.head ++ c :: t) = none := by
    rw [hline]
    exact e.cutDelimiter?_append hplain
  intro rest
  rw [hlines, List.cons_append, scanLines,
    step_of_importLine? hon hs hdelimiter (L.importLine?_head c t), hread, List.length_cons]
  dsimp only
  rw [List.drop_left]
  congr 1
  omega

/-- **Reading an import undoes its layout.** However its lines are broken and commented, an import
that stands outside of strings ends the open class and gives one record, with its names in order and
without their other names, its module or else its first name, and its first line; and the scan goes
on behind its last line. An import alone has this record for its outline. -/
theorem scan_importLines (options : OutlineOptions) :
    (∀ (s : ScanState) (n : Nat), s.strings.quote = none →
      Reads { options with imports := true } s n L.lines
        { s.closeClass with latest := none, imports := L.record n :: s.imports }) ∧
      declarations { options with imports := true } (unlines L.lines) =
        { imports := [L.record 1] } := by
  refine ⟨fun s n hs => L.reads_lines rfl hs n, ?_⟩
  have hsingle : ∀ l ∈ L.lines, SingleLine l := by
    intro l hl
    obtain ⟨code, e, rfl, hplain⟩ := L.exists_code_of_mem_lines l hl
    exact e.singleLine_append hplain
  have hread : Reads { options with imports := true } {} 1 L.lines { imports := [L.record 1] } :=
    L.reads_lines rfl rfl 1
  have hscan := hread []
  rw [List.append_nil] at hscan
  rw [declarations, lines_unlines hsingle, hscan, scanLines]
  simp [ScanState.declarations, ScanState.closeClass]

end ImportLayout

/-- An import from a package two levels up, with comments that hold commas and parentheses. -/
def sampleImport : ImportLayout where
  module? := some ⟨"..pkg.core".toList, by decide, by decide +kernel⟩
  first :=
    (.lineBreak
        ⟨.spaces 2, some ⟨" names (all), of )".toList, by decide, by rintro (_ | _) <;> decide⟩⟩
        [⟨.spaces 0, none⟩] (.spaces 4),
      ⟨⟨"run".toList, by decide, by decide +kernel⟩,
        some ⟨"start".toList, by decide, by decide +kernel⟩⟩)
  others := [(.blanks (.spaces 1), ⟨⟨"stop".toList, by decide, by decide +kernel⟩, none⟩)]
  parentheses := some
    { trailingComma := true, closing := .lineBreak ⟨.spaces 0, none⟩ [] (.spaces 0) }
  behind := ⟨.spaces 1, some ⟨" end".toList, by decide, by rintro (_ | _) <;> decide⟩⟩
  oneLine := by simp

theorem scan_importLines_sample :
    sampleImport.lines =
        ["from ..pkg.core import (  # names (all), of )", "", "    run as start, stop,",
          ") # end"].map String.toList ∧
      Reads { imports := true } {} 7 sampleImport.lines
        { imports := [⟨"..pkg.core".toList, ["run".toList, "stop".toList], 7⟩] } :=
  ⟨by decide +kernel, (sampleImport.scan_importLines {}).1 {} 7 rfl⟩

end CodeIndex.Indented
