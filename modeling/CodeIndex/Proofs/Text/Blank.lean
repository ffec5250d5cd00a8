import Mathlib.Data.List.TakeDrop
import Mathlib.Data.List.TakeWhile
import CodeIndex.Proofs.Text.Cut
import CodeIndex.Text.Blank
import CodeIndex.Text.Word

/-!
# Trimmed texts and the character classes

Stripping removes the characters of a class at the ends and nothing else: what it leaves has none
there (`stripped_strip`), and more of them at the ends change nothing (`strip_append`). Trimming
removes blanks, so it leaves a text alone that starts and ends with other characters
(`trim_eq_self`). A word character is neither a blank nor a line boundary (`isBlank_of_isWord`,
`isLineBoundary_of_isWord`); the tables list no such code point.
-/

namespace CodeIndex.Text

/-! ## Stripping a class of characters -/

/-- No character of the class stands at an end of the text. -/
structure Stripped (p : Char → Bool) (t : Text) : Prop where
  starts : ∀ c, t.head? = some c → p c = false
  ends : ∀ c, t.getLast? = some c → p c = false

section Strip

variable {p : Char → Bool} {t : Text}

theorem eq_false_of_head?_dropWhile {c : Char} (h : (t.dropWhile p).head? = some c) :
    p c = false := by
  have hnot := List.head?_dropWhile_not p t
  rw [h] at hnot
  exact hnot

theorem dropWhile_eq_self_of_head? (h : ∀ c, t.head? = some c → p c = false) :
    t.dropWhile p = t := by
  cases t with
  | nil => rfl
  | cons c t => rw [List.dropWhile_cons_of_neg (by simp [h c rfl])]

/-- **What stripping leaves has no character of the class at its ends.** -/
theorem stripped_strip (p : Char → Bool) (t : Text) : Stripped p (strip p t) := by
  constructor
  · intro c hc
    -- the first character that is left is the first one behind those of the class
    obtain ⟨u, hu⟩ : strip p t <+: stripLeft p t := by
      rw [strip, stripRight, ← List.reverse_suffix, List.reverse_reverse]
      exact List.dropWhile_suffix p
    refine eq_false_of_head?_dropWhile (t := t) ?_
    rw [← stripLeft, ← hu, List.head?_append, hc]
    rfl
  · intro c hc
    rw [strip, stripRight, List.getLast?_reverse] at hc
    exact eq_false_of_head?_dropWhile hc

theorem Stripped.strip_eq (h : Stripped p t) : strip p t = t := by
  have hends : ∀ c, t.reverse.head? = some c → p c = false := fun c hc =>
    h.ends c (List.head?_reverse ▸ hc)
  rw [strip, stripLeft, dropWhile_eq_self_of_head? h.starts, stripRight,
    dropWhile_eq_self_of_head? hends, List.reverse_reverse]

theorem stripRight_append {s : Text} (h : ∀ c ∈ s, p c = true) (t : Text) :
    stripRight p (t ++ s) = stripRight p t := by
  have hdrop : s.reverse.dropWhile p = [] := List.dropWhile_eq_nil_iff.2 (by simpa using h)
  rw [stripRight, List.reverse_append, List.dropWhile_append, hdrop]
  rfl

/-- **Characters of the class at the ends do not change what is left.** -/
theorem strip_append {s u : Text} (hs : ∀ c ∈ s, p c = true) (hu : ∀ c ∈ u, p c = true) (t : Text) :
    strip p (s ++ (t ++ u)) = strip p t := by
  have hdrop : u.dropWhile p = [] := List.dropWhile_eq_nil_iff.2 hu
  rw [strip, stripLeft, List.dropWhile_append_of_pos hs, List.dropWhile_append, hdrop, strip,
    stripLeft]
  split
  · next hempty => rw [List.isEmpty_iff.1 hempty]
  · exact stripRight_append hu _

end Strip

/-! ## Blanks at the start -/

theorem isBlank_of_mem_replicate (n : Nat) : ∀ c ∈ List.replicate n ' ', isBlank c = true := by
  intro c hc
  rw [List.eq_of_mem_replicate hc]
  decide

@[simp] theorem trimLeft_nil : trimLeft [] = [] := rfl

theorem trimLeft_cons_blank {c : Char} (h : isBlank c = true) (t : Text) :
    trimLeft (c :: t) = trimLeft t := by
  rw [trimLeft, stripLeft, List.dropWhile_cons_of_pos h]
  rfl

theorem trimLeft_cons {c : Char} (h : isBlank c = false) (t : Text) :
    trimLeft (c :: t) = c :: t := by
  rw [trimLeft, stripLeft, List.dropWhile_cons_of_neg (by simp [h])]

theorem trimLeft_append {s : Text} (h : ∀ c ∈ s, isBlank c = true) (t : Text) :
    trimLeft (s ++ t) = trimLeft t :=
  List.dropWhile_append_of_pos h

/-! ## Blanks at both ends -/

theorem trimRight_append_singleton {c : Char} (h : isBlank c = false) (t : Text) :
    trimRight (t ++ [c]) = t ++ [c] := by
  simp [trimRight, stripRight, h]

theorem trimRight_eq_nil {t : Text} (h : ∀ c ∈ t, isBlank c = true) : trimRight t = [] := by
  rw [trimRight, stripRight, List.dropWhile_eq_nil_iff.2 (by simpa using h), List.reverse_nil]

theorem trim_eq (t : Text) : trim t = trimRight (trimLeft t) := rfl

theorem trim_cons_blank {c : Char} (h : isBlank c = true) (t : Text) : trim (c :: t) = trim t := by
  rw [trim_eq, trimLeft_cons_blank h, trim_eq]

/-- **A text that neither starts nor ends with a blank is left alone.** -/
theorem trim_eq_self {c d : Char} {s t : Text} (hc : isBlank c = false) (hd : isBlank d = false)
    (h : c :: s = t ++ [d]) : trim (c :: s) = c :: s := by
  rw [trim_eq, trimLeft_cons hc, h, trimRight_append_singleton hd]

theorem trim_cons_append_singleton {c d : Char} (hc : isBlank c = false) (hd : isBlank d = false)
    (t : Text) : trim (c :: (t ++ [d])) = c :: (t ++ [d]) :=
  trim_eq_self hc hd (List.cons_append ..).symm

theorem trimRight_append {s : Text} (h : ∀ c ∈ s, isBlank c = true) (t : Text) :
    trimRight (t ++ s) = trimRight t :=
  stripRight_append h t

theorem trim_eq_nil {t : Text} (h : ∀ c ∈ t, isBlank c = true) : trim t = [] := by
  have hleft := trimLeft_append h []
  rw [List.append_nil] at hleft
  rw [trim_eq, hleft]
  rfl

theorem strip_subset (p : Char → Bool) (t : Text) : strip p t ⊆ t := by
  intro c hc
  rw [strip, stripRight, List.mem_reverse] at hc
  exact List.dropWhile_subset _ (List.mem_reverse.1 (List.dropWhile_subset _ hc))

/-- The text is not empty, and neither starts nor ends with a blank. -/
structure Solid (t : Text) : Prop where
  starts : ∃ c s, t = c :: s ∧ isBlank c = false
  ends : ∃ s c, t = s ++ [c] ∧ isBlank c = false

namespace Solid

theorem of_stripped {t : Text} (h : Stripped isBlank t) (hne : t ≠ []) : Solid t := by
  obtain ⟨c, s, hc⟩ := List.exists_cons_of_ne_nil hne
  refine ⟨⟨c, s, hc, h.starts c (by rw [hc, List.head?_cons])⟩, ?_⟩
  exact ⟨t.dropLast, t.getLast hne, (List.dropLast_append_getLast hne).symm,
    h.ends _ (List.getLast?_eq_some_getLast hne)⟩

theorem of_trim {t : Text} (h : trim t = t) (hne : t ≠ []) : Solid t :=
  of_stripped (h ▸ stripped_strip isBlank t) hne

theorem singleton {c : Char} (hc : isBlank c = false) : Solid [c] :=
  ⟨⟨c, [], rfl, hc⟩, ⟨[], c, rfl, hc⟩⟩

theorem of_forall {t : Text} (hne : t ≠ []) (h : ∀ c ∈ t, isBlank c = false) : Solid t := by
  refine ⟨?_, t.dropLast, t.getLast hne, (List.dropLast_append_getLast hne).symm, ?_⟩
  · obtain ⟨c, s, rfl⟩ := List.exists_cons_of_ne_nil hne
    exact ⟨c, s, rfl, h c List.mem_cons_self⟩
  · exact h _ (List.getLast_mem hne)

/-- Whatever stands between two solid texts. -/
theorem append {s t : Text} (hs : Solid s) (ht : Solid t) (between : Text) :
    Solid (s ++ (between ++ t)) := by
  obtain ⟨c, s, rfl, hc⟩ := hs.starts
  obtain ⟨t, d, rfl, hd⟩ := ht.ends
  exact ⟨⟨c, _, List.cons_append, hc⟩, ⟨c :: s ++ (between ++ t), d, by simp, hd⟩⟩

/-- **Trimming finds a solid text between blanks.** -/
theorem trim_eq {t : Text} (ht : Solid t) {s u : Text} (hs : ∀ c ∈ s, isBlank c = true)
    (hu : ∀ c ∈ u, isBlank c = true) : trim (s ++ (t ++ u)) = t := by
  obtain ⟨c, t', h, hc⟩ := ht.starts
  obtain ⟨t'', d, h', hd⟩ := ht.ends
  have hleft : trimLeft (t ++ u) = t ++ u := by rw [h, List.cons_append, trimLeft_cons hc]
  rw [Text.trim_eq, trimLeft_append hs, hleft, trimRight_append hu, h',
    trimRight_append_singleton hd]

/-- **A trimmed text is solid**, unless nothing is left of it. -/
theorem of_trim_ne_nil {t : Text} (h : trim t ≠ []) : Solid (trim t) :=
  of_stripped (stripped_strip isBlank t) h

theorem join {parts : List Text} (hne : parts ≠ []) (h : ∀ p ∈ parts, Solid p) (sep : Text) :
    Solid (Text.join sep parts) := by
  induction parts with
  | nil => exact absurd rfl hne
  | cons p parts ih =>
    obtain ⟨hp, hparts⟩ := List.forall_mem_cons.1 h
    cases parts with
    | nil => rwa [join_singleton]
    | cons q parts =>
      rw [join_cons_cons]
      exact hp.append (ih (List.cons_ne_nil _ _) hparts) sep

end Solid

/-- The blanks before a text. -/
theorem exists_blanks_append_trimLeft (t : Text) :
    ∃ s, (∀ c ∈ s, isBlank c = true) ∧ t = s ++ trimLeft t :=
  ⟨t.takeWhile isBlank, fun _ hc => List.mem_takeWhile_imp hc, List.takeWhile_append_dropWhile.symm⟩

/-- A text is what trimming leaves of it, between blanks. -/
theorem exists_blanks_append_trim (t : Text) :
    ∃ s u, (∀ c ∈ s, isBlank c = true) ∧ (∀ c ∈ u, isBlank c = true) ∧ t = s ++ (trim t ++ u) := by
  obtain ⟨s, hs, ht⟩ := exists_blanks_append_trimLeft t
  obtain ⟨u, hu, htrim⟩ := exists_blanks_append_trimLeft (trimLeft t).reverse
  refine ⟨s, u.reverse, hs, by simpa using hu, ?_⟩
  have hright : trimLeft t = trim t ++ u.reverse := by
    rw [← List.reverse_inj, htrim, List.reverse_append, List.reverse_reverse]
    simp [trim_eq, trimRight, stripRight, trimLeft, stripLeft]
  rw [← hright]
  exact ht

/-- A character that is no blank stays when it is the first one. -/
theorem exists_trim_cons {c : Char} (hc : isBlank c = false) (t : Text) :
    ∃ u, trim (c :: t) = c :: u := by
  obtain ⟨s, u, hs, hu, heq⟩ := exists_blanks_append_trim (c :: t)
  cases s with
  | cons d s =>
    obtain ⟨rfl, -⟩ := List.cons.inj heq
    exact absurd (hs c List.mem_cons_self) (by simp [hc])
  | nil =>
    cases htrim : trim (c :: t) with
    | cons d v =>
      rw [htrim] at heq
      exact ⟨v, by rw [(List.cons.inj heq).1]⟩
    | nil =>
      rw [htrim, List.nil_append, List.nil_append] at heq
      exact absurd (hu c (heq ▸ List.mem_cons_self)) (by simp [hc])

theorem blanks1?_cons_blank {c : Char} (h : isBlank c = true) (t : Text) :
    blanks1? (c :: t) = some (trimLeft t) := by
  rw [blanks1?, if_pos h]

theorem blanks1?_cons {c : Char} (h : isBlank c = false) (t : Text) : blanks1? (c :: t) = none := by
  rw [blanks1?, if_neg (by simp [h])]

theorem blanks1?_append {s : Text} (hne : s ≠ []) (hs : ∀ c ∈ s, isBlank c = true) (t : Text) :
    blanks1? (s ++ t) = some (trimLeft t) := by
  obtain ⟨c, s, rfl⟩ := List.exists_cons_of_ne_nil hne
  rw [List.cons_append, blanks1?_cons_blank (hs c (by simp)), trimLeft_append fun d hd =>
    hs d (by simp [hd])]

/-- What stands before the rest that `blanks1?` gives. -/
theorem exists_of_blanks1? {t rest : Text} (h : blanks1? t = some rest) :
    ∃ s, s ≠ [] ∧ (∀ c ∈ s, isBlank c = true) ∧ t = s ++ rest := by
  cases t with
  | nil => exact absurd h (by simp [blanks1?])
  | cons c t =>
    cases hc : isBlank c with
    | false => exact absurd h (by simp [blanks1?_cons hc])
    | true =>
      rw [blanks1?_cons_blank hc, Option.some.injEq] at h
      obtain ⟨s, hs, ht⟩ := exists_blanks_append_trimLeft t
      refine ⟨c :: s, by simp, List.forall_mem_cons.2 ⟨hc, hs⟩, ?_⟩
      rw [List.cons_append, ← h, ← ht]

/-! ## Character classes -/

/-- The blanks from code point 128 on. -/
def wideBlanks : List Nat :=
  [0x85, 0xA0, 0x1680, 0x2028, 0x2029, 0x202F, 0x205F, 0x3000] ++ (List.range 11).map (0x2000 + ·)

theorem mem_wideBlanks {c : Char} (h : isBlank c = true) (hc : 128 ≤ c.toNat) :
    c.toNat ∈ wideBlanks := by
  have hs : c ≠ ' ' := by
    rintro rfl
    exact absurd hc (by decide)
  simp only [isBlank, hs, decide_false, Bool.false_or, Bool.or_eq_true, Bool.and_eq_true,
    decide_eq_true_eq] at h
  simp only [wideBlanks, List.mem_append, List.mem_cons, List.not_mem_nil, or_false, List.mem_map,
    List.mem_range]
  by_cases hr : 0x2000 ≤ c.toNat ∧ c.toNat ≤ 0x200A
  · exact .inr ⟨c.toNat - 0x2000, by omega, by omega⟩
  · refine .inl ?_
    omega

theorem inRanges_wordRanges_of_mem_wideBlanks {n : Nat} (h : n ∈ wideBlanks) :
    inRanges wordRanges n = false := by
  revert n
  decide +kernel

theorem toNat_of_isAlphanum {c : Char} (h : c.isAlphanum = true) :
    48 ≤ c.toNat ∧ c.toNat ≤ 122 := by
  have h : (decide (c.val ≥ 'A'.val ∧ c.val ≤ 'Z'.val) || (c.val ≥ 'a'.val && c.val ≤ 'z'.val) ||
      (c.val ≥ '0'.val && c.val ≤ '9'.val)) = true := h
  simp only [Bool.or_eq_true, Bool.and_eq_true, decide_eq_true_eq, UInt32.le_iff_toNat_le] at h
  change ((65 ≤ c.toNat ∧ c.toNat ≤ 90) ∨ (97 ≤ c.toNat ∧ c.toNat ≤ 122)) ∨
    (48 ≤ c.toNat ∧ c.toNat ≤ 57) at h
  omega

/-- **A word character is no blank.** -/
theorem isBlank_of_isWord {c : Char} (h : isWord c = true) : isBlank c = false := by
  by_contra hb
  rw [Bool.not_eq_false] at hb
  simp only [isWord, Bool.or_eq_true, Bool.and_eq_true, decide_eq_true_eq] at h
  rcases h with (h | rfl) | ⟨hc, h⟩
  · have := toNat_of_isAlphanum h
    have hs : c ≠ ' ' := by
      rintro rfl
      exact absurd h (by decide)
    simp only [isBlank, hs, decide_false, Bool.false_or, Bool.or_eq_true, Bool.and_eq_true,
      decide_eq_true_eq] at hb
    omega
  · exact absurd hb (by decide)
  · rw [inRanges_wordRanges_of_mem_wideBlanks (mem_wideBlanks hb hc)] at h
    exact Bool.false_ne_true h

theorem isBlank_of_isLineBoundary {c : Char} (h : isLineBoundary c = true) : isBlank c = true := by
  simp only [isLineBoundary, isBlank, Bool.or_eq_true, Bool.and_eq_true, decide_eq_true_eq] at h ⊢
  omega

/-- A word character ends no line. -/
theorem isLineBoundary_of_isWord {c : Char} (h : isWord c = true) : isLineBoundary c = false := by
  by_contra hb
  rw [Bool.not_eq_false] at hb
  have := isBlank_of_isWord h
  rw [isBlank_of_isLineBoundary hb] at this
  exact absurd this (by decide)

/-! ## Words -/

/-- A word up to a character that belongs to no word is read whole. -/
theorem word?_append_cons {w : Text} (hne : w ≠ []) (hw : ∀ c ∈ w, isWord c = true) {c : Char}
    (hc : isWord c = false) (u : Text) : word? (w ++ c :: u) = some (w, c :: u) := by
  have hspan : (w ++ c :: u).span isWord = (w, c :: u) := by
    rw [List.span_eq_takeWhile_dropWhile, List.takeWhile_append_of_pos hw,
      List.dropWhile_append_of_pos hw]
    simp [hc]
  rw [word?, word, hspan]
  split
  · next h => exact absurd (Prod.mk.inj h).1 hne
  · next h => rw [(Prod.mk.inj h).1, (Prod.mk.inj h).2]

/-- What `word?` reads is a word at the head of the text. -/
theorem of_word? {t w rest : Text} (h : word? t = some (w, rest)) :
    w ≠ [] ∧ (∀ c ∈ w, isWord c = true) ∧ t = w ++ rest := by
  rw [word?, word, List.span_eq_takeWhile_dropWhile] at h
  split at h
  · exact absurd h (by simp)
  · next w' rest' hne hspan =>
    obtain ⟨rfl, rfl⟩ := Prod.mk.inj hspan
    obtain ⟨rfl, rfl⟩ := Prod.mk.inj (Option.some.inj h)
    exact ⟨hne, fun _ hc => List.mem_takeWhile_imp hc, List.takeWhile_append_dropWhile.symm⟩

/-- A word stands right after the blanks before it. -/
theorem trimLeft_append_word {w : Text} (hne : w ≠ []) (hw : ∀ c ∈ w, isWord c = true) (u : Text) :
    trimLeft (w ++ u) = w ++ u := by
  obtain ⟨c, w, rfl⟩ := List.exists_cons_of_ne_nil hne
  exact trimLeft_cons (isBlank_of_isWord (hw c (by simp))) (w ++ u)

theorem trim_word {w : Text} (hw : ∀ c ∈ w, isWord c = true) : trim w = w := by
  cases w with
  | nil => rfl
  | cons c w =>
    have hlast : (c :: w).getLast (List.cons_ne_nil c w) ∈ c :: w := List.getLast_mem _
    exact trim_eq_self (isBlank_of_isWord (hw c (by simp))) (isBlank_of_isWord (hw _ hlast))
      (List.dropLast_append_getLast _).symm

theorem word?_eq_none {t : Text} (h : ∀ c ∈ t.head?, isWord c = false) : word? t = none := by
  cases t with
  | nil => rfl
  | cons c t =>
    have hc : isWord c = false := h c rfl
    simp [word?, word, List.span_eq_takeWhile_dropWhile, hc]

end CodeIndex.Text
