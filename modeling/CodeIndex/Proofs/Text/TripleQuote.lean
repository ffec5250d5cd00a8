import CodeIndex.Proofs.Text.Blank
import CodeIndex.Proofs.Text.Cut
import CodeIndex.Text.TripleQuote

/-!
# Finding triple quotes

`cutDelimiter?` finds the first delimiter of a line: a line without quotes before one is cut there
(`cutDelimiter?_append`), and nothing is found exactly when neither delimiter occurs
(`cutDelimiter?_eq_none_iff`). A closed tracker reads a string that opens and closes on one line as
a whole (`feed_string`).
-/

namespace CodeIndex.Text

/-- No character of the text is a quote. -/
def QuoteFree (t : Text) : Prop := ∀ c ∈ t, c ≠ '"' ∧ c ≠ '\''

instance (t : Text) : Decidable (QuoteFree t) :=
  inferInstanceAs (Decidable (∀ c ∈ t, c ≠ '"' ∧ c ≠ '\''))

@[simp] theorem quoteFree_nil : QuoteFree [] := fun _ h => absurd h List.not_mem_nil

@[simp] theorem quoteFree_cons {c : Char} {t : Text} :
    QuoteFree (c :: t) ↔ (c ≠ '"' ∧ c ≠ '\'') ∧ QuoteFree t := List.forall_mem_cons

@[simp] theorem quoteFree_append {s t : Text} : QuoteFree (s ++ t) ↔ QuoteFree s ∧ QuoteFree t :=
  List.forall_mem_append

theorem quoteFree_of_isWord {t : Text} (h : ∀ c ∈ t, isWord c = true) : QuoteFree t := by
  refine fun c hc => ⟨?_, ?_⟩ <;> rintro rfl
  · exact absurd (h _ hc) (by decide)
  · exact absurd (h _ hc) (by decide)

theorem quoteFree_of_isBlank {t : Text} (h : ∀ c ∈ t, isBlank c = true) : QuoteFree t := by
  refine fun c hc => ⟨?_, ?_⟩ <;> rintro rfl
  · exact absurd (h _ hc) (by decide)
  · exact absurd (h _ hc) (by decide)

theorem cutDelimiterFrom?_cons {c : Char} (hd : c ≠ '"') (hs : c ≠ '\'') (seen t : Text) :
    cutDelimiterFrom? seen (c :: t) = cutDelimiterFrom? (c :: seen) t := by
  rw [cutDelimiterFrom?]
  · rintro _ h -
    exact hd h
  · rintro _ h -
    exact hs h

theorem cutDelimiterFrom?_append {a : Text} (ha : QuoteFree a) (q : Delimiter) (seen b : Text) :
    cutDelimiterFrom? seen (a ++ (q.chars ++ b)) = some (seen.reverse ++ a, q, b) := by
  induction a generalizing seen with
  | nil => cases q <;> simp [Delimiter.chars, cutDelimiterFrom?]
  | cons c a ih =>
    obtain ⟨⟨hd, hs⟩, ha⟩ := quoteFree_cons.1 ha
    rw [List.cons_append, cutDelimiterFrom?_cons hd hs, ih ha]
    simp

/-- The first delimiter after a text without quotes. -/
theorem cutDelimiter?_append {a : Text} (ha : QuoteFree a) (q : Delimiter) (b : Text) :
    cutDelimiter? (a ++ (q.chars ++ b)) = some (a, q, b) :=
  cutDelimiterFrom?_append ha q [] b

theorem eq_of_cutDelimiterFrom? {seen t head tail : Text} {q : Delimiter}
    (h : cutDelimiterFrom? seen t = some (head, q, tail)) :
    seen.reverse ++ t = head ++ (q.chars ++ tail) := by
  fun_induction cutDelimiterFrom? seen t with
  | case1 => exact absurd h (by simp)
  | case2 seen t =>
    simp only [Option.some.injEq, Prod.mk.injEq] at h
    obtain ⟨rfl, rfl, rfl⟩ := h
    rfl
  | case3 seen t =>
    simp only [Option.some.injEq, Prod.mk.injEq] at h
    obtain ⟨rfl, rfl, rfl⟩ := h
    rfl
  | case4 seen c t _ _ ih => rw [← ih h, List.reverse_cons, List.append_assoc,
      List.singleton_append]

/-- A line is what was cut around its first delimiter. -/
theorem eq_of_cutDelimiter? {t head tail : Text} {q : Delimiter}
    (h : cutDelimiter? t = some (head, q, tail)) : t = head ++ (q.chars ++ tail) :=
  eq_of_cutDelimiterFrom? h

theorem Delimiter.chars_ne_nil (q : Delimiter) : q.chars ≠ [] := by
  cases q <;> decide

/-- No delimiter starts at a character where `cutDelimiterFrom?` passes on. -/
theorem Delimiter.not_prefix_cons {c : Char} {t : Text}
    (hd : ∀ u, c = '"' → t = '"' :: '"' :: u → False)
    (hs : ∀ u, c = '\'' → t = '\'' :: '\'' :: u → False) (q : Delimiter) :
    ¬ q.chars <+: c :: t := by
  rintro ⟨u, hu⟩
  cases q with
  | double => exact hd u (List.cons.inj hu).1.symm (List.cons.inj hu).2.symm
  | single => exact hs u (List.cons.inj hu).1.symm (List.cons.inj hu).2.symm

theorem cutDelimiterFrom?_eq_none_iff {seen t : Text} :
    cutDelimiterFrom? seen t = none ↔ ∀ q : Delimiter, ¬ q.chars <:+: t := by
  fun_induction cutDelimiterFrom? seen t with
  | case1 seen =>
    refine ⟨fun _ q h => ?_, fun _ => rfl⟩
    cases q <;> simp [Delimiter.chars] at h
  | case2 seen t => exact ⟨nofun, fun h => absurd (List.prefix_append _ t).isInfix (h .double)⟩
  | case3 seen t => exact ⟨nofun, fun h => absurd (List.prefix_append _ t).isInfix (h .single)⟩
  | case4 seen c t hd hs ih =>
    -- neither delimiter starts here, so every occurrence is one in the rest
    rw [ih]
    refine forall_congr' fun q => ?_
    rw [List.infix_cons_iff, or_iff_right (Delimiter.not_prefix_cons hd hs q)]

/-- **No delimiter is found exactly when none occurs.** -/
theorem cutDelimiter?_eq_none_iff {t : Text} :
    cutDelimiter? t = none ↔ ∀ q : Delimiter, ¬ q.chars <:+: t :=
  cutDelimiterFrom?_eq_none_iff

theorem cutDelimiterFrom?_append_of_cutDelimiterFrom? {seen t a b : Text} {q : Delimiter}
    (h : cutDelimiterFrom? seen t = some (a, q, b)) (u : Text) :
    ∃ a', a = seen.reverse ++ a' ∧
      cutDelimiterFrom? seen (a' ++ (q.chars ++ u)) = some (a, q, u) := by
  fun_induction cutDelimiterFrom? seen t with
  | case1 => exact absurd h (by simp)
  | case2 seen t =>
    obtain ⟨rfl, rfl, rfl⟩ : seen.reverse = a ∧ .double = q ∧ t = b := by simpa using h
    exact ⟨[], (List.append_nil _).symm, rfl⟩
  | case3 seen t =>
    obtain ⟨rfl, rfl, rfl⟩ : seen.reverse = a ∧ .single = q ∧ t = b := by simpa using h
    exact ⟨[], (List.append_nil _).symm, rfl⟩
  | case4 seen c t hd hs ih =>
    obtain ⟨a', rfl, ha'⟩ := ih h
    refine ⟨c :: a', by simp, ?_⟩
    have ht : c :: t = (c :: a' ++ q.chars) ++ b := by simpa using eq_of_cutDelimiterFrom? h
    -- a delimiter at this character would lie in the part that both texts have
    have hc : ∀ q' : Delimiter, ¬ q'.chars <+: c :: (a' ++ (q.chars ++ u)) := by
      intro q' hp
      refine Delimiter.not_prefix_cons hd hs q' (ht ▸ prefix_append_congr (u := u) ?_ ?_ b)
      · simpa using hp
      · cases q <;> cases q' <;> simp [Delimiter.chars]
    rw [List.cons_append, cutDelimiterFrom?]
    · exact ha'
    · rintro v rfl hv
      exact hc .double ⟨v, by rw [hv]; rfl⟩
    · rintro v rfl hv
      exact hc .single ⟨v, by rw [hv]; rfl⟩

/-- **The first delimiter does not depend on what follows it.** -/
theorem cutDelimiter?_append_of_cutDelimiter? {t a b : Text} {q : Delimiter}
    (h : cutDelimiter? t = some (a, q, b)) (u : Text) :
    cutDelimiter? (a ++ (q.chars ++ u)) = some (a, q, u) := by
  obtain ⟨a', rfl, ha'⟩ := cutDelimiterFrom?_append_of_cutDelimiterFrom? h u
  exact ha'

theorem cutDelimiter?_append_right {t a b : Text} {q : Delimiter}
    (h : cutDelimiter? t = some (a, q, b)) (u : Text) :
    cutDelimiter? (t ++ u) = some (a, q, b ++ u) := by
  have := cutDelimiter?_append_of_cutDelimiter? h (b ++ u)
  rwa [eq_of_cutDelimiter? h, List.append_assoc, List.append_assoc]

theorem cutDelimiterFrom?_first {seen t a b : Text} {q : Delimiter}
    (h : cutDelimiterFrom? seen t = some (a, q, b)) :
    ∀ (u : Text) (d : Delimiter), u ++ d.chars <+: t → a.length ≤ seen.length + u.length := by
  fun_induction cutDelimiterFrom? seen t with
  | case1 => exact absurd h (by simp)
  | case2 seen t =>
    obtain ⟨rfl, -⟩ := Prod.mk.inj (Option.some.inj h)
    simp
  | case3 seen t =>
    obtain ⟨rfl, -⟩ := Prod.mk.inj (Option.some.inj h)
    simp
  | case4 seen c t hd hs ih =>
    intro u d hu
    cases u with
    | nil => exact absurd hu (Delimiter.not_prefix_cons hd hs d)
    | cons e u =>
      have hle := ih h u d (List.cons_prefix_cons.1 hu).2
      rw [List.length_cons] at hle ⊢
      omega

/-- **A line is cut around the first delimiter of either kind.** -/
theorem cutDelimiter?_eq_some_iff {t a b : Text} {q : Delimiter} :
    cutDelimiter? t = some (a, q, b) ↔
      t = a ++ (q.chars ++ b) ∧
        ∀ (u : Text) (d : Delimiter), u ++ d.chars <+: t → a.length ≤ u.length := by
  have hfirst {a b : Text} {q : Delimiter} (h : cutDelimiter? t = some (a, q, b)) (u : Text)
      (d : Delimiter) (hu : u ++ d.chars <+: t) : a.length ≤ u.length := by
    simpa using cutDelimiterFrom?_first h u d hu
  constructor
  · intro h
    exact ⟨eq_of_cutDelimiter? h, hfirst h⟩
  · rintro ⟨heq, hleast⟩
    obtain ⟨⟨a', q', b'⟩, hcut⟩ : ∃ cut, cutDelimiter? t = some cut := by
      rw [← Option.ne_none_iff_exists', ne_eq, cutDelimiter?_eq_none_iff]
      exact fun hnone => hnone q ⟨a, b, by rw [heq, List.append_assoc]⟩
    have heq' := eq_of_cutDelimiter? hcut
    have hle := hfirst hcut a q ⟨b, by rw [heq, List.append_assoc]⟩
    have hge := hleast a' q' ⟨b', by rw [heq', List.append_assoc]⟩
    obtain ⟨rfl, hrest⟩ := List.append_inj (heq.symm.trans heq') (by omega)
    -- the two delimiters have the same first character
    obtain rfl : q = q' := by
      cases q <;> cases q' <;> first | rfl | exact absurd (List.cons.inj hrest).1 (by decide)
    rw [hcut, List.append_cancel_left hrest]

/-- The first delimiter of a line is also the first one of its kind. -/
theorem cut?_of_cutDelimiter? {t a b : Text} {q : Delimiter}
    (h : cutDelimiter? t = some (a, q, b)) : cut? q.chars t = some (a, b) := by
  obtain ⟨heq, hfirst⟩ := cutDelimiter?_eq_some_iff.1 h
  exact cut?_eq_some_iff.2 ⟨heq, fun u hu => hfirst u q hu⟩

theorem cutDelimiter?_of_quoteFree {t : Text} (h : QuoteFree t) : cutDelimiter? t = none := by
  rw [cutDelimiter?_eq_none_iff]
  rintro (_ | _) hq
  · exact (h '"' (hq.subset (by simp [Delimiter.chars]))).1 rfl
  · exact (h '\'' (hq.subset (by simp [Delimiter.chars]))).2 rfl

theorem cutDelimiter?_of_trimLeft_eq_nil {t : Text} (h : trimLeft t = []) :
    cutDelimiter? t = none := by
  obtain ⟨gap, hgap, heq⟩ := exists_blanks_append_trimLeft t
  rw [heq, h, List.append_nil]
  exact cutDelimiter?_of_quoteFree (quoteFree_of_isBlank hgap)

/-- No delimiter stands before the first one. -/
theorem cutDelimiter?_head {t a b : Text} {q : Delimiter} (h : cutDelimiter? t = some (a, q, b)) :
    cutDelimiter? a = none := by
  by_contra hcut
  obtain ⟨⟨a', q', b'⟩, hcut⟩ := Option.ne_none_iff_exists'.1 hcut
  have hfirst := cutDelimiter?_append_right hcut (q.chars ++ b)
  rw [← eq_of_cutDelimiter? h, h, Option.some.injEq, Prod.mk.injEq] at hfirst
  have hlength := congrArg List.length (eq_of_cutDelimiter? hcut)
  have hpos := List.length_pos_iff.2 q'.chars_ne_nil
  rw [← hfirst.1, List.length_append, List.length_append] at hlength
  omega

theorem cut?_chars_append {a : Text} (ha : QuoteFree a) (q : Delimiter) (b : Text) :
    cut? q.chars (a ++ (q.chars ++ b)) = some (a, b) := by
  rw [← List.append_assoc]
  cases q with
  | double => exact cut?_append_cons (fun h => (ha _ h).1 rfl) b
  | single => exact cut?_append_cons (fun h => (ha _ h).2 rfl) b

namespace StringTracker

/-- A line without a delimiter does not touch a closed tracker. -/
theorem feed_of_cutDelimiter?_eq_none {s : StringTracker} {line : Text} (hs : s.quote = none)
    (h : cutDelimiter? line = none) : s.feed line = (false, s) := by
  rw [feed, hs]
  simp only [h]

section Feed

variable {s : StringTracker} {q : Delimiter} {line : Text}

theorem feed_opening {head tail : Text} (hs : s.quote = none)
    (hopen : cutDelimiter? line = some (head, q, tail)) (hnone : cut? q.chars tail = none) :
    s.feed line = (true, { s with quote := some q, parts := [trim tail] }) := by
  simp only [feed, hs, hopen, hnone]

theorem feed_inside (hs : s.quote = some q) (hnone : ¬ q.chars <:+: line) :
    s.feed line = (true, { s with parts := trim line :: s.parts }) := by
  simp only [feed, hs, cut?_eq_none_iff.2 hnone]

theorem feed_closing {head rest : Text} (hs : s.quote = some q)
    (hcut : cut? q.chars line = some (head, rest)) :
    s.feed line = (true, { completed := some (joinParts (trim head :: s.parts)) }) := by
  simp only [feed, hs, hcut]

end Feed

/-- **A string on one line**: a closed tracker stays closed and completes it. -/
theorem feed_string {s : StringTracker} {head body : Text} (hs : s.quote = none)
    (hh : QuoteFree head) (hb : QuoteFree body) (q : Delimiter) (tail : Text) :
    s.feed (head ++ (q.chars ++ (body ++ (q.chars ++ tail)))) =
      (true, { s with completed := some (trim body) }) := by
  rw [feed, hs]
  simp only [cutDelimiter?_append hh, cut?_chars_append hb]

end StringTracker

end CodeIndex.Text
