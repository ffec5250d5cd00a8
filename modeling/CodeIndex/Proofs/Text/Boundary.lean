import CodeIndex.Proofs.Text.Lines

/-!
# Lines between boundaries and lines between line feeds

`lines` ends a line at every line boundary, while `lineOffset` counts line feeds only. `lineBegin k
t` is where the line with index `k` of `lines t` stands (`prefix_drop_lineBegin`). The boundaries
above it are line feeds, some of them after a carriage return, and stray ones
(`count_add_strayBoundaries`). Each stray boundary makes `lineOffset` skip one line too many, so
that the two places agree exactly when there is none (`lineStart_eq_lineBegin_iff`).
-/

namespace CodeIndex.Text

/-- Where the line with index `k` begins: behind the first `k` line boundaries. -/
def lineBegin : (k : Nat) → Text → Nat
  | 0, _ => 0
  | _ + 1, [] => 0
  | k + 1, '\r' :: '\n' :: t => lineBegin k t + 2
  | k + 1, c :: t => if isLineBoundary c then lineBegin k t + 1 else lineBegin (k + 1) t + 1

/-- The number of line boundaries that are no line feed, with or without a carriage return before
it. -/
def strayBoundaries : Text → Nat
  | [] => 0
  | '\r' :: '\n' :: t => strayBoundaries t
  | c :: t => (if isLineBoundary c ∧ c ≠ '\n' then 1 else 0) + strayBoundaries t

/-! ## The lines of a longer text -/

/-- A character in front of the current line is the first one of that line. -/
theorem linesFrom_append_singleton (c : Char) (line t : Text) :
    linesFrom [] (line ++ [c]) t =
      (c :: (linesFrom [] line t).headD []) :: (linesFrom [] line t).tail := by
  induction t generalizing line with
  | nil => by_cases h : line = [] <;> simp [linesFrom, h]
  | cons d t ih =>
    have hend : ∀ u, linesFrom [(line ++ [c]).reverse] [] u =
        (c :: (linesFrom [line.reverse] [] u).headD []) ::
          (linesFrom [line.reverse] [] u).tail := by
      intro u
      have hpull : ∀ l, linesFrom [l] [] u = l :: linesFrom [] [] u := fun l =>
        linesFrom_append_done [] [l] [] u
      rw [hpull, hpull, List.reverse_append, List.reverse_singleton]
      rfl
    by_cases hcr : d = '\r' ∧ ∃ u, t = '\n' :: u
    · obtain ⟨rfl, u, rfl⟩ := hcr
      rw [linesFrom, linesFrom]
      exact hend u
    · have hcr' : ∀ u, d = '\r' → t = '\n' :: u → False := fun u hd ht => hcr ⟨hd, u, ht⟩
      rw [linesFrom.eq_3 _ _ _ _ hcr', linesFrom.eq_3 _ _ _ _ hcr']
      split
      · exact hend t
      · exact ih (d :: line)

theorem lines_cons {c : Char} (h : isLineBoundary c = false) (t : Text) :
    lines (c :: t) = (c :: (lines t).headD []) :: (lines t).tail := by
  rw [lines, linesFrom_cons h]
  exact linesFrom_append_singleton c [] t

theorem lines_carriageReturn (t : Text) : lines ('\r' :: '\n' :: t) = [] :: lines t := by
  rw [lines, linesFrom]
  exact linesFrom_append_done [] [[]] [] t

theorem lines_boundary {c : Char} {t : Text} (h : isLineBoundary c = true)
    (hcr : ∀ u, c = '\r' → t = '\n' :: u → False) : lines (c :: t) = [] :: lines t := by
  rw [lines, linesFrom.eq_3 _ _ _ _ hcr, if_pos h]
  exact linesFrom_append_done [] [[]] [] t

theorem headD_lines_prefix (t : Text) : (lines t).headD [] <+: t := by
  induction t with
  | nil => exact List.prefix_rfl
  | cons c t ih =>
    by_cases hcr : c = '\r' ∧ ∃ u, t = '\n' :: u
    · obtain ⟨rfl, u, rfl⟩ := hcr
      rw [lines_carriageReturn]
      exact List.nil_prefix
    · cases h : isLineBoundary c with
      | true =>
        rw [lines_boundary h fun u hc ht => hcr ⟨hc, u, ht⟩]
        exact List.nil_prefix
      | false =>
        rw [lines_cons h]
        exact List.cons_prefix_cons.2 ⟨rfl, ih⟩

/-! ## Where a line begins -/

section Begin

variable {k : Nat} {t line : Text}

/-- **A line stands where it begins.** -/
theorem prefix_drop_lineBegin (h : (lines t)[k]? = some line) :
    line <+: t.drop (lineBegin k t) := by
  fun_induction lineBegin k t with
  | case1 t =>
    have := headD_lines_prefix t
    rwa [List.headD_eq_head?_getD, List.head?_eq_getElem?, h, Option.getD_some] at this
  | case2 k => simp [lines, linesFrom] at h
  | case3 k t ih =>
    rw [lines_carriageReturn, List.getElem?_cons_succ] at h
    exact ih h
  | case4 k c t hcr hc ih =>
    rw [lines_boundary hc hcr, List.getElem?_cons_succ] at h
    exact ih h
  | case5 k c t hcr hc ih =>
    rw [lines_cons (Bool.not_eq_true _ ▸ hc), List.getElem?_cons_succ, List.getElem?_tail] at h
    exact ih h

theorem strayBoundaries_take_succ {c : Char} (hcr : ∀ u, c = '\r' → t = '\n' :: u → False)
    (m : Nat) :
    strayBoundaries ((c :: t).take (m + 1)) =
      (if isLineBoundary c ∧ c ≠ '\n' then 1 else 0) + strayBoundaries (t.take m) := by
  rw [List.take_succ_cons, strayBoundaries]
  intro u hc hu
  obtain ⟨v, hv⟩ := hu ▸ List.take_prefix m t
  exact hcr (u ++ v) hc hv.symm

/-- **The boundaries above a line are line feeds and stray ones.** -/
theorem count_add_strayBoundaries (h : (lines t)[k]? = some line) :
    (t.take (lineBegin k t)).count '\n' + strayBoundaries (t.take (lineBegin k t)) = k := by
  fun_induction lineBegin k t with
  | case1 t => rfl
  | case2 k => simp [lines, linesFrom] at h
  | case3 k t ih =>
    rw [lines_carriageReturn, List.getElem?_cons_succ] at h
    have hfeed : ('\r' :: '\n' :: t.take (lineBegin k t)).count '\n' =
        (t.take (lineBegin k t)).count '\n' + 1 := by simp
    rw [List.take_succ_cons, List.take_succ_cons, strayBoundaries, hfeed, Nat.add_right_comm, ih h]
  | case4 k c t hcr hc ih =>
    rw [lines_boundary hc hcr, List.getElem?_cons_succ] at h
    have := ih h
    rw [strayBoundaries_take_succ hcr, List.take_succ_cons, List.count_cons]
    by_cases hfeed : c = '\n' <;> simp [hc, hfeed] <;> omega
  | case5 k c t hcr hc ih =>
    have hfeed : c ≠ '\n' := by
      rintro rfl
      exact hc (by decide)
    rw [lines_cons (Bool.not_eq_true _ ▸ hc), List.getElem?_cons_succ, List.getElem?_tail] at h
    rw [strayBoundaries_take_succ hcr, List.take_succ_cons, List.count_cons_of_ne hfeed,
      if_neg fun hb => hc hb.1, Nat.zero_add, ih h]

/-! ## Where counting line feeds leads -/

/-- Without stray boundaries the line feeds lead to the line. -/
theorem lineStart_eq_lineBegin (h : strayBoundaries (t.take (lineBegin k t)) = 0) (pos : Nat) :
    lineStart k pos t = pos + lineBegin k t := by
  fun_induction lineBegin k t generalizing pos with
  | case1 t => rw [lineStart, Nat.add_zero]
  | case2 k => rw [lineStart, Nat.add_zero]
  | case3 k t ih =>
    rw [List.take_succ_cons, List.take_succ_cons, strayBoundaries] at h
    rw [lineStart, if_neg (by decide), lineStart, if_pos rfl, ih h]
    omega
  | case4 k c t hcr hc ih =>
    rw [strayBoundaries_take_succ hcr, Nat.add_eq_zero_iff] at h
    have hfeed : c = '\n' := by
      by_contra hfeed
      rw [if_pos ⟨hc, hfeed⟩] at h
      exact absurd h.1 (by decide)
    rw [lineStart, if_pos hfeed, ih h.2]
    omega
  | case5 k c t hcr hc ih =>
    have hfeed : c ≠ '\n' := by
      rintro rfl
      exact hc (by decide)
    rw [strayBoundaries_take_succ hcr, Nat.add_eq_zero_iff] at h
    rw [lineStart, if_neg hfeed, ih h.2]
    omega

/-- More lines than a text has line feeds are counted on behind it. -/
theorem lineStart_count_append (s t : Text) (m pos : Nat) :
    lineStart (s.count '\n' + (m + 1)) pos (s ++ t) = lineStart (m + 1) (pos + s.length) t := by
  induction s generalizing pos with
  | nil => simp
  | cons c s ih =>
    rw [List.cons_append, List.length_cons, List.count_cons]
    by_cases hfeed : c = '\n'
    · rw [hfeed, beq_self_eq_true, if_pos rfl, Nat.add_right_comm, lineStart, if_pos rfl, ih]
      congr 1
      omega
    · rw [beq_false_of_ne hfeed, if_neg (by decide), Nat.add_zero, ← Nat.add_assoc, lineStart,
        if_neg hfeed, Nat.add_assoc, ih]
      congr 1
      omega

theorem le_lineStart (m pos : Nat) (t : Text) : pos ≤ lineStart m pos t := by
  have := lineStart_mono (Nat.zero_le m) pos t
  rwa [lineStart] at this

/-- **Each stray boundary above a line moves the counted place behind it.** -/
theorem lineBegin_lt_lineStart (h : (lines t)[k]? = some line) (hne : line ≠ [])
    (hstray : 0 < strayBoundaries (t.take (lineBegin k t))) : lineBegin k t < lineStart k 0 t := by
  obtain ⟨c, l, rfl⟩ := List.exists_cons_of_ne_nil hne
  obtain ⟨rest, hrest⟩ := prefix_drop_lineBegin h
  obtain ⟨m, hm⟩ := Nat.exists_eq_add_of_lt hstray
  have hcount := count_add_strayBoundaries h
  have hlength : (t.take (lineBegin k t)).length = lineBegin k t := by
    have := congrArg List.length hrest
    simp only [List.cons_append, List.length_cons, List.length_drop] at this
    exact List.length_take_of_le (by omega)
  have hsplit : t.take (lineBegin k t) ++ c :: (l ++ rest) = t := by
    rw [← List.cons_append, hrest, List.take_append_drop]
  have hstart := lineStart_count_append (t.take (lineBegin k t)) (c :: (l ++ rest)) m 0
  rw [hm, Nat.zero_add] at hcount
  rw [hcount, hsplit, hlength, Nat.zero_add] at hstart
  rw [hstart, lineStart]
  split
  · exact le_lineStart m _ _
  · exact le_lineStart (m + 1) _ _

/-- **Counting line feeds leads to a line exactly when no stray boundary stands above it**, and
never above the line. -/
theorem lineStart_eq_lineBegin_iff (h : (lines t)[k]? = some line) (hne : line ≠ []) :
    lineStart k 0 t = lineBegin k t ↔ strayBoundaries (t.take (lineBegin k t)) = 0 := by
  constructor
  · intro heq
    by_contra hstray
    have := lineBegin_lt_lineStart h hne (Nat.pos_of_ne_zero hstray)
    omega
  · intro hstray
    rw [lineStart_eq_lineBegin hstray, Nat.zero_add]

end Begin

end CodeIndex.Text
