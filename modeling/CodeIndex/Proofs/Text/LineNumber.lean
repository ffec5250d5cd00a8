import CodeIndex.Proofs.Text.Lines

/-!
# Line numbers and positions

`lineOf` counts the line feeds before a position, `lineOffset` looks for the place behind so many of
them. They are inverse to each other (`lineOf_lineOffset_inverse`): the line of a position starts
where nothing but that line stands between (`StartsLineOf`), and the line that starts at the place
of a line number has this number, as long as the text has so many lines.

Both follow from what stands before a line: the lines above it, each with its line feed
(`exists_unlines_of_le_count`).
-/

namespace CodeIndex.Text

variable {t : Text}

/-- A text with `n` line feeds starts with `n` lines. -/
theorem exists_unlines_of_le_count {n : Nat} (h : n ≤ t.count '\n') :
    ∃ ls rest, t = unlines ls ++ rest ∧ ls.length = n ∧ ∀ l ∈ ls, '\n' ∉ l := by
  induction n generalizing t with
  | zero => exact ⟨[], t, rfl, rfl, List.forall_mem_nil _⟩
  | succ n ih =>
    have hmem : '\n' ∈ t := List.count_pos_iff.1 (by omega)
    obtain ⟨l, t, rfl, hl⟩ := List.eq_append_cons_of_mem hmem
    rw [List.count_append, List.count_eq_zero.2 hl, Nat.zero_add, List.count_cons_self] at h
    obtain ⟨ls, rest, rfl, rfl, hls⟩ := ih (Nat.le_of_succ_le_succ h)
    exact ⟨l :: ls, rest, by simp [unlines_cons], rfl, List.forall_mem_cons.2 ⟨hl, hls⟩⟩

theorem count_unlines {ls : List Text} (h : ∀ l ∈ ls, '\n' ∉ l) :
    (unlines ls).count '\n' = ls.length := by
  induction ls with
  | nil => rfl
  | cons l ls ih =>
    obtain ⟨hl, hls⟩ := List.forall_mem_cons.1 h
    rw [unlines_cons, List.count_append, List.count_eq_zero.2 hl, List.count_cons_self, ih hls,
      Nat.zero_add, List.length_cons]

/-- **The line that starts at the place of a line number has this number.** -/
theorem lineOf_lineStart {n : Nat} (h : n ≤ t.count '\n') : lineOf t (lineStart n 0 t) = n + 1 := by
  obtain ⟨ls, rest, rfl, rfl, hls⟩ := exists_unlines_of_le_count h
  rw [lineStart_unlines_append hls, Nat.zero_add, lineOf, List.take_left, count_unlines hls]

/-- Lines beyond the last start at the end of the text. -/
theorem lineStart_of_count_lt {n : Nat} (h : t.count '\n' < n) (pos : Nat) :
    lineStart n pos t = pos + t.length := by
  fun_induction lineStart n pos t with
  | case1 pos t => exact absurd h (Nat.not_lt_zero _)
  | case2 n pos => rfl
  | case3 n pos t ih =>
    rw [List.count_cons_self] at h
    rw [ih (Nat.lt_of_succ_lt_succ h), List.length_cons]
    omega
  | case4 n pos c t hc ih =>
    rw [List.count_cons_of_ne hc] at h
    rw [ih h, List.length_cons]
    omega

/-! ## The line of a position -/

/-- A line starts at a position: it is the start of the text or follows a line feed. -/
def BeginsLine (t : Text) (o : Nat) : Prop := o = 0 ∨ ∃ p, o = p + 1 ∧ t[p]? = some '\n'

/-- The line of the position `i` starts at `o`. -/
structure StartsLineOf (t : Text) (i o : Nat) : Prop where
  le : o ≤ i
  begins : BeginsLine t o
  sameLine : '\n' ∉ (t.take i).drop o

theorem beginsLine_lineStart {n : Nat} (h : n ≤ t.count '\n') : BeginsLine t (lineStart n 0 t) := by
  obtain ⟨ls, rest, rfl, rfl, hls⟩ := exists_unlines_of_le_count h
  rw [lineStart_unlines_append hls, Nat.zero_add]
  rcases List.eq_nil_or_concat ls with rfl | ⟨ls, l, rfl⟩
  · exact .inl rfl
  · -- the line feed of the last line above
    have htext : unlines (ls ++ [l]) = unlines ls ++ l ++ ['\n'] := by simp [unlines]
    refine .inr ⟨(unlines ls ++ l).length, ?_, ?_⟩
    · rw [List.concat_eq_append, htext, List.length_append, List.length_singleton]
    · rw [List.concat_eq_append, htext, List.append_assoc, List.getElem?_append_right le_rfl]
      simp

/-- **The line of a position starts where its number says.** -/
theorem startsLineOf_lineOffset (t : Text) (i : Nat) :
    StartsLineOf t i (lineOffset t (lineOf t i)) := by
  have hle := lineOffset_lineOf_le t i
  have hcount : (t.take i).count '\n' ≤ t.count '\n' := (List.take_sublist i t).count_le _
  rw [lineOf, lineOffset_succ] at hle ⊢
  refine ⟨hle, beginsLine_lineStart hcount, ?_⟩
  -- all line feeds before the position stand before the start of its line
  have habove :
      (t.take (lineStart ((t.take i).count '\n') 0 t)).count '\n' = (t.take i).count '\n' :=
    Nat.succ.inj (lineOf_lineStart hcount)
  generalize lineStart ((t.take i).count '\n') 0 t = o at hle habove ⊢
  have hsplit := congrArg (List.count '\n') (List.take_append_drop o (t.take i))
  rw [List.count_append, List.take_take, Nat.min_eq_left hle] at hsplit
  rw [← List.count_eq_zero]
  omega

/-- **Line numbers and positions are inverse to each other.** The line of a position starts at or
before it, at the start of the text or behind a line feed, with no line feed between. A line that
the text has starts at a position on this line; lines beyond the last start at its end, those before
the first at its start, and a line further down starts no earlier. -/
theorem lineOf_lineOffset_inverse (t : Text) :
    (∀ i, StartsLineOf t i (lineOffset t (lineOf t i))) ∧
      (∀ n : Int, 1 ≤ n → n ≤ t.count '\n' + 1 → (lineOf t (lineOffset t n) : Int) = n) ∧
      (∀ n : Int, t.count '\n' + 1 < n → lineOffset t n = t.length) ∧
      (∀ n : Int, n ≤ 0 → lineOffset t n = 0) ∧
      ∀ m n : Int, m ≤ n → lineOffset t m ≤ lineOffset t n := by
  refine ⟨startsLineOf_lineOffset t, fun n hpos hle => ?_, fun n hlt => ?_, fun n hle => ?_,
    fun m n hle => lineOffset_mono hle t⟩
  · obtain ⟨k, rfl⟩ : ∃ k : Nat, n = ((k + 1 : Nat) : Int) := ⟨(n - 1).toNat, by omega⟩
    rw [lineOffset_succ, lineOf_lineStart (by omega)]
  · rw [lineOffset, lineStart_of_count_lt (by omega), Nat.zero_add]
  · have hzero : (n - 1).toNat = 0 := by omega
    rw [lineOffset, hzero, lineStart]

/-- Positions and lines of a text with an empty line, and a line feed at its end. -/
theorem lineOf_lineOffset_inverse_sample :
    StartsLineOf "ab\n\ncd\n".toList 5 4 ∧ StartsLineOf "ab\n\ncd\n".toList 3 3 ∧
      lineOf "ab\n\ncd\n".toList (lineOffset "ab\n\ncd\n".toList 4) = 4 ∧
      lineOffset "ab\n\ncd\n".toList 5 = 7 ∧ lineOffset "ab\n\ncd\n".toList (-1) = 0 ∧
      lineOffset "ab\n\ncd\n".toList 1 ≤ lineOffset "ab\n\ncd\n".toList 3 := by
  obtain ⟨hline, hnumber, hbeyond, hbefore, hmono⟩ :=
    lineOf_lineOffset_inverse "ab\n\ncd\n".toList
  refine ⟨hline 5, hline 3, ?_,
    hbeyond 5 (by decide), hbefore (-1) (by decide), hmono 1 3 (by decide)⟩
  exact Int.ofNat.inj (hnumber 4 (by decide) (by decide))

end CodeIndex.Text
