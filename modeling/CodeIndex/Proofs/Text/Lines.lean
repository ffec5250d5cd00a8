import Mathlib.Data.List.Basic
import CodeIndex.Proofs.Text.Cut
import CodeIndex.Proofs.Text.Search
import CodeIndex.Text.Lines

/-!
# Lines written one after the other

Texts that hold no line boundary, each followed by a line feed, are read back as the lines they were
(`lines_unlines`). A text whose only line boundaries are line feeds is its lines up to any of them,
written one after the other, and the rest (`exists_unlines_of_getElem?`); so the line with number
`n` stands where `lineOffset` says (`lineOffset_unlines_append`).
-/

namespace CodeIndex.Text

/-- No character of the text ends a line. -/
def SingleLine (t : Text) : Prop := ∀ c ∈ t, isLineBoundary c = false

instance (t : Text) : Decidable (SingleLine t) :=
  inferInstanceAs (Decidable (∀ c ∈ t, isLineBoundary c = false))

/-- The lines in order, each with a line feed after it. -/
def unlines (ls : List Text) : Text := ls.flatMap (· ++ ['\n'])

@[simp] theorem singleLine_nil : SingleLine [] := fun _ h => absurd h List.not_mem_nil

@[simp] theorem singleLine_cons {c : Char} {t : Text} :
    SingleLine (c :: t) ↔ isLineBoundary c = false ∧ SingleLine t := List.forall_mem_cons

@[simp] theorem singleLine_append {s t : Text} :
    SingleLine (s ++ t) ↔ SingleLine s ∧ SingleLine t :=
  List.forall_mem_append

theorem linesFrom_cons {c : Char} (h : isLineBoundary c = false) (done : List Text)
    (line t : Text) :
    linesFrom done line (c :: t) = linesFrom done (c :: line) t := by
  rw [linesFrom]
  · simp [h]
  · rintro _ rfl -
    exact absurd h (by decide)

/-- A text that ends at a line feed is one more finished line. -/
theorem linesFrom_append {l : Text} (h : SingleLine l) (done : List Text) (line t : Text) :
    linesFrom done line (l ++ '\n' :: t) = linesFrom ((line.reverse ++ l) :: done) [] t := by
  induction l generalizing line with
  | nil =>
    rw [List.nil_append, linesFrom]
    · simp [isLineBoundary]
    · rintro _ h -
      exact absurd h (by decide)
  | cons c l ih =>
    obtain ⟨hc, hl⟩ := singleLine_cons.1 h
    rw [List.cons_append, linesFrom_cons hc, ih hl]
    simp

theorem linesFrom_unlines {ls : List Text} (h : ∀ l ∈ ls, SingleLine l) (done : List Text) :
    linesFrom done [] (unlines ls) = done.reverse ++ ls := by
  induction ls generalizing done with
  | nil => simp [unlines, linesFrom]
  | cons l ls ih =>
    have hu : unlines (l :: ls) = l ++ '\n' :: unlines ls := by simp [unlines]
    rw [hu, linesFrom_append (h l (by simp)), ih fun m hm => h m (by simp [hm])]
    simp

/-- **Lines written one after the other are read back.** -/
theorem lines_unlines {ls : List Text} (h : ∀ l ∈ ls, SingleLine l) : lines (unlines ls) = ls :=
  linesFrom_unlines h []

theorem singleLine_of_mem_linesFrom {done : List Text} {line t : Text}
    (hdone : ∀ l ∈ done, SingleLine l) (hline : SingleLine line) :
    ∀ l ∈ linesFrom done line t, SingleLine l := by
  have hreverse {line : Text} (h : SingleLine line) : SingleLine line.reverse :=
    fun c hc => h c (List.mem_reverse.1 hc)
  fun_induction linesFrom done line t with
  | case1 done line =>
    intro l hl
    rw [List.mem_reverse] at hl
    split at hl
    · exact hdone l hl
    · rcases List.mem_cons.1 hl with rfl | hl
      · exact hreverse hline
      · exact hdone l hl
  | case2 done line t ih =>
    exact ih (List.forall_mem_cons.2 ⟨hreverse hline, hdone⟩) singleLine_nil
  | case3 done line c t hcr hc ih =>
    exact ih (List.forall_mem_cons.2 ⟨hreverse hline, hdone⟩) singleLine_nil
  | case4 done line c t hcr hc ih =>
    exact ih hdone (singleLine_cons.2 ⟨Bool.not_eq_true _ ▸ hc, hline⟩)

/-- **No line holds a line boundary.** -/
theorem singleLine_of_mem_lines {l t : Text} (h : l ∈ lines t) : SingleLine l :=
  singleLine_of_mem_linesFrom (by simp) singleLine_nil l h

/-! ## Where a line stands -/

/-- Only line feeds end lines. -/
def EndsInFeeds (t : Text) : Prop := ∀ c ∈ t, isLineBoundary c = true → c = '\n'

instance (t : Text) : Decidable (EndsInFeeds t) :=
  inferInstanceAs (Decidable (∀ c ∈ t, isLineBoundary c = true → c = '\n'))

theorem unlines_cons (l : Text) (ls : List Text) : unlines (l :: ls) = l ++ '\n' :: unlines ls := by
  simp [unlines]

/-- Finished lines stay as they are. -/
theorem linesFrom_append_done (done done' : List Text) (line t : Text) :
    linesFrom (done ++ done') line t = done'.reverse ++ linesFrom done line t := by
  fun_induction linesFrom done line t with
  | case1 done line =>
    rw [linesFrom]
    split <;> simp
  | case2 done line t ih => rw [linesFrom, ← List.cons_append, ih]
  | case3 done line c t hcr hc ih =>
    rw [linesFrom, if_pos hc, ← List.cons_append, ih]
    exact hcr
  | case4 done line c t hcr hc ih =>
    rw [linesFrom, if_neg hc, ih]
    exact hcr

/-- A text whose only line boundaries are line feeds is a line, or a line, a line feed and such a
text. -/
theorem EndsInFeeds.cases {t : Text} (h : EndsInFeeds t) :
    SingleLine t ∨ ∃ l t', t = l ++ '\n' :: t' ∧ SingleLine l ∧ EndsInFeeds t' := by
  induction t with
  | nil => exact .inl singleLine_nil
  | cons c t ih =>
    obtain ⟨hc, ht⟩ := List.forall_mem_cons.1 h
    by_cases hfeed : c = '\n'
    · exact .inr ⟨[], t, by rw [hfeed]; rfl, singleLine_nil, ht⟩
    · have hc : isLineBoundary c = false := by
        rw [← Bool.not_eq_true]
        exact fun hb => hfeed (hc hb)
      obtain hs | ⟨l, t', rfl, hl, ht'⟩ := ih ht
      · exact .inl (singleLine_cons.2 ⟨hc, hs⟩)
      · exact .inr ⟨c :: l, t', rfl, singleLine_cons.2 ⟨hc, hl⟩, ht'⟩

theorem linesFrom_of_singleLine {t : Text} (h : SingleLine t) (done : List Text) (line : Text) :
    linesFrom done line t = linesFrom done (t.reverse ++ line) [] := by
  induction t generalizing line with
  | nil => rfl
  | cons c t ih =>
    obtain ⟨hc, ht⟩ := singleLine_cons.1 h
    rw [linesFrom_cons hc, ih ht]
    simp

theorem lines_of_singleLine {t : Text} (h : SingleLine t) :
    lines t = if t = [] then [] else [t] := by
  rw [lines, linesFrom_of_singleLine h, linesFrom]
  split <;> simp_all

theorem lines_append {l : Text} (h : SingleLine l) (t : Text) :
    lines (l ++ '\n' :: t) = l :: lines t := by
  rw [lines, linesFrom_append h]
  exact linesFrom_append_done [] [l] [] t

/-- **A text up to a line is the lines before it, each with a line feed.** -/
theorem exists_unlines_of_getElem? {t line : Text} {k : Nat} (h : EndsInFeeds t)
    (hk : (lines t)[k]? = some line) :
    ∃ ls rest, t = unlines ls ++ (line ++ rest) ∧ ls.length = k ∧ (∀ l ∈ ls, SingleLine l) ∧
      SingleLine line := by
  induction k generalizing t with
  | zero =>
    obtain hs | ⟨l, t', rfl, hl, -⟩ := h.cases
    · rw [lines_of_singleLine hs] at hk
      split at hk
      · exact absurd hk (by simp)
      · obtain rfl := Option.some.inj hk
        exact ⟨[], [], (List.append_nil t).symm, rfl, by simp, hs⟩
    · rw [lines_append hl, List.getElem?_cons_zero, Option.some.injEq] at hk
      subst hk
      exact ⟨[], '\n' :: t', rfl, rfl, by simp, hl⟩
  | succ k ih =>
    obtain hs | ⟨l, t', rfl, hl, ht'⟩ := h.cases
    · rw [lines_of_singleLine hs] at hk
      split at hk <;> exact absurd hk (by simp)
    · rw [lines_append hl, List.getElem?_cons_succ] at hk
      obtain ⟨ls, rest, rfl, rfl, hls, hline⟩ := ih ht' hk
      refine ⟨l :: ls, rest, ?_, rfl, List.forall_mem_cons.2 ⟨hl, hls⟩, hline⟩
      rw [unlines_cons, List.append_assoc, List.cons_append]

theorem lineStart_append {l : Text} (h : '\n' ∉ l) (n pos : Nat) (t : Text) :
    lineStart (n + 1) pos (l ++ '\n' :: t) = lineStart n (pos + l.length + 1) t := by
  induction l generalizing pos with
  | nil => rw [List.nil_append, lineStart, if_pos rfl]; rfl
  | cons c l ih =>
    rw [List.mem_cons, not_or] at h
    rw [List.cons_append, lineStart, if_neg (Ne.symm h.1), ih h.2, List.length_cons]
    congr 2
    omega

theorem SingleLine.not_mem {t : Text} (h : SingleLine t) : '\n' ∉ t :=
  fun hm => absurd (h _ hm) (by decide)

theorem lineStart_unlines_append {ls : List Text} (h : ∀ l ∈ ls, '\n' ∉ l) (pos : Nat)
    (t : Text) : lineStart ls.length pos (unlines ls ++ t) = pos + (unlines ls).length := by
  induction ls generalizing pos with
  | nil => rw [List.length_nil, lineStart]; rfl
  | cons l ls ih =>
    rw [unlines_cons, List.append_assoc, List.cons_append, List.length_cons,
      lineStart_append (h l (by simp)), ih fun m hm => h m (by simp [hm]),
      List.length_append, List.length_cons]
    omega

theorem lineOffset_succ (t : Text) (n : Nat) :
    lineOffset t ((n + 1 : Nat) : Int) = lineStart n 0 t := by
  have hn : (((n + 1 : Nat) : Int) - 1).toNat = n := by omega
  rw [lineOffset, hn]

/-- **A line stands behind the lines before it.** -/
theorem lineOffset_unlines_append {ls : List Text} (h : ∀ l ∈ ls, SingleLine l) (t : Text) :
    lineOffset (unlines ls ++ t) ((ls.length + 1 : Nat) : Int) = (unlines ls).length := by
  rw [lineOffset_succ, lineStart_unlines_append fun l hl => (h l hl).not_mem, Nat.zero_add]

/-- Lines further down start further behind. -/
theorem lineStart_mono {m n : Nat} (h : m ≤ n) (pos : Nat) (t : Text) :
    lineStart m pos t ≤ lineStart n pos t := by
  fun_induction lineStart n pos t generalizing m with
  | case1 pos t => rw [Nat.le_zero.1 h, lineStart]
  | case2 n pos => cases m <;> rw [lineStart]
  | case3 n pos t ih =>
    cases m with
    | zero =>
      rw [lineStart]
      exact Nat.le_of_succ_le (by simpa only [lineStart] using ih (Nat.zero_le n))
    | succ m =>
      rw [lineStart, if_pos rfl]
      exact ih (Nat.le_of_succ_le_succ h)
  | case4 n pos c t hc ih =>
    cases m with
    | zero =>
      rw [lineStart]
      exact Nat.le_of_succ_le (by simpa only [lineStart] using ih (Nat.zero_le (n + 1)))
    | succ m =>
      rw [lineStart, if_neg hc]
      exact ih h

theorem lineOffset_mono {m n : Int} (h : m ≤ n) (t : Text) : lineOffset t m ≤ lineOffset t n :=
  lineStart_mono (by omega) 0 t

/-- The line of a position starts at or before it. -/
theorem lineStart_count_take_le (t : Text) (i pos : Nat) :
    lineStart ((t.take i).count '\n') pos t ≤ pos + i := by
  induction t generalizing i pos with
  | nil => simp [lineStart]
  | cons c t ih =>
    cases i with
    | zero => simp [lineStart]
    | succ i =>
      have hnext := ih i (pos + 1)
      rw [List.take_succ_cons, List.count_cons]
      by_cases hc : c = '\n'
      · rw [if_pos (beq_iff_eq.2 hc), lineStart, if_pos hc]
        omega
      · rw [if_neg fun h => hc (beq_iff_eq.1 h), Nat.add_zero]
        cases hn : (t.take i).count '\n' with
        | zero =>
          rw [lineStart]
          omega
        | succ n =>
          rw [hn] at hnext
          rw [lineStart, if_neg hc]
          omega

theorem lineOffset_lineOf_le (t : Text) (i : Nat) : lineOffset t (lineOf t i) ≤ i := by
  rw [lineOf, lineOffset_succ]
  simpa using lineStart_count_take_le t i 0

/-- A line starts behind all lines above it. -/
theorem lineOffset_lt {t line : Text} {j k : Nat} (h : EndsInFeeds t)
    (hk : (lines t)[k]? = some line) (hjk : j < k) :
    lineOffset t ((j + 1 : Nat) : Int) < lineOffset t ((k + 1 : Nat) : Int) := by
  obtain ⟨ls, rest, rfl, rfl, hls, -⟩ := exists_unlines_of_getElem? h hk
  have hsplit : unlines ls = unlines (ls.take j) ++ unlines (ls.drop j) := by
    rw [unlines, unlines, unlines, ← List.flatMap_append, List.take_append_drop]
  have hj : (ls.take j).length = j := List.length_take_of_le (Nat.le_of_lt hjk)
  have habove : lineOffset (unlines ls ++ (line ++ rest)) ((j + 1 : Nat) : Int) =
      (unlines (ls.take j)).length := by
    have htake : ∀ l ∈ ls.take j, SingleLine l := fun l hl => hls l (List.mem_of_mem_take hl)
    have := lineOffset_unlines_append htake (unlines (ls.drop j) ++ (line ++ rest))
    rwa [hj, ← List.append_assoc, ← hsplit] at this
  rw [habove, lineOffset_unlines_append hls, hsplit, List.length_append,
    List.drop_eq_getElem_cons hjk, unlines_cons, List.length_append, List.length_cons]
  omega

theorem startsLine_charBefore? (ls : List Text) (t : Text) :
    startsLine (charBefore? (unlines ls ++ t) (unlines ls).length) = true := by
  induction ls using List.reverseRecOn with
  | nil => rfl
  | append_singleton ls l =>
    -- the last line feed stands before the rest
    have htext : unlines (ls ++ [l]) ++ t = (unlines ls ++ l) ++ '\n' :: t := by simp [unlines]
    have hlength : (unlines (ls ++ [l])).length = (unlines ls ++ l).length + 1 := by
      simp [unlines, Nat.add_assoc]
    rw [htext, hlength, charBefore?_succ List.drop_left]
    rfl

end CodeIndex.Text
