import CodeIndex.Proofs.Text.TripleQuote

/-!
# Which string is open behind a line

`quoteAfter` reads a text character by character: closed, it opens a string at the first delimiter;
open, it closes the string at the next delimiter of the same kind and goes on with the rest. The
tracker looks at a whole line at once. It agrees with the scan of the characters on every line that
closes no string, and takes every other line to end closed (`quote_feed`). So the two agree behind
every line exactly when no line closes a string and leaves one open (`quote_feedAll_iff`).
-/

namespace CodeIndex.Text

/-- The delimiter of the string that is open behind a text, when `quote` is open before it. -/
def quoteAfter : (quote : Option Delimiter) → Text → Option Delimiter
  | none, '"' :: '"' :: '"' :: t => quoteAfter (some .double) t
  | none, '\'' :: '\'' :: '\'' :: t => quoteAfter (some .single) t
  | some .double, '"' :: '"' :: '"' :: t => quoteAfter none t
  | some .single, '\'' :: '\'' :: '\'' :: t => quoteAfter none t
  | quote, _ :: t => quoteAfter quote t
  | quote, [] => quote

@[simp] theorem quoteAfter_nil (quote : Option Delimiter) : quoteAfter quote [] = quote := by
  cases quote with
  | none => rfl
  | some q => cases q <;> rfl

/-! ## From delimiter to delimiter -/

theorem quoteAfter_none_chars (q : Delimiter) (t : Text) :
    quoteAfter none (q.chars ++ t) = quoteAfter (some q) t := by
  cases q <;> rfl

theorem quoteAfter_some_chars (q : Delimiter) (t : Text) :
    quoteAfter (some q) (q.chars ++ t) = quoteAfter none t := by
  cases q <;> rfl

/-- A character that starts no delimiter is passed over outside of strings. -/
theorem quoteAfter_none_cons {c : Char} {t : Text} (h : ∀ q : Delimiter, ¬ q.chars <+: c :: t) :
    quoteAfter none (c :: t) = quoteAfter none t := by
  rw [quoteAfter]
  · rintro u - rfl rfl
    exact h .double ⟨u, rfl⟩
  · rintro u - rfl rfl
    exact h .single ⟨u, rfl⟩
  · nofun
  · nofun

/-- In a string, a character is passed over that does not start its delimiter. -/
theorem quoteAfter_some_cons {q : Delimiter} {c : Char} {t : Text} (h : ¬ q.chars <+: c :: t) :
    quoteAfter (some q) (c :: t) = quoteAfter (some q) t := by
  cases q with
  | double =>
    rw [quoteAfter]
    · nofun
    · nofun
    · rintro u - rfl rfl
      exact h ⟨u, rfl⟩
    · nofun
  | single =>
    rw [quoteAfter]
    · nofun
    · nofun
    · nofun
    · rintro u - rfl rfl
      exact h ⟨u, rfl⟩

theorem quoteAfter_some_eq_cutFrom? (q : Delimiter) (seen t : Text) :
    quoteAfter (some q) t =
      match cutFrom? q.chars seen t with
      | some (_, rest) => quoteAfter none rest
      | none => some q := by
  fun_induction cutFrom? q.chars seen t with
  | case1 seen h => exact absurd h q.chars_ne_nil
  | case2 seen h => rw [quoteAfter_nil]
  | case3 seen c t rest hr => rw [after?_eq_some_iff.1 hr, quoteAfter_some_chars]
  | case4 seen c t hr ih => rw [quoteAfter_some_cons (after?_eq_none_iff.1 hr), ih]

/-- **An open string is closed by the next delimiter of its kind.** -/
theorem quoteAfter_some_of_cut? {q : Delimiter} {t a b : Text} (h : cut? q.chars t = some (a, b)) :
    quoteAfter (some q) t = quoteAfter none b := by
  rw [quoteAfter_some_eq_cutFrom? q [] t, show cutFrom? q.chars [] t = _ from h]

theorem quoteAfter_some_of_not_occurs {q : Delimiter} {t : Text} (h : ¬ q.chars <:+: t) :
    quoteAfter (some q) t = some q := by
  rw [quoteAfter_some_eq_cutFrom? q [] t, cutFrom?_eq_none_iff.2 h]

theorem quoteAfter_none_eq_cutDelimiterFrom? (seen t : Text) :
    quoteAfter none t =
      match cutDelimiterFrom? seen t with
      | some (_, q, rest) => quoteAfter (some q) rest
      | none => none := by
  fun_induction cutDelimiterFrom? seen t with
  | case1 seen => rfl
  | case2 seen t => exact quoteAfter_none_chars .double t
  | case3 seen t => exact quoteAfter_none_chars .single t
  | case4 seen c t hd hs ih => rw [quoteAfter_none_cons (Delimiter.not_prefix_cons hd hs), ih]

/-- **Outside of strings the first delimiter opens one.** -/
theorem quoteAfter_none_of_cutDelimiter? {q : Delimiter} {t a b : Text}
    (h : cutDelimiter? t = some (a, q, b)) : quoteAfter none t = quoteAfter (some q) b := by
  rw [quoteAfter_none_eq_cutDelimiterFrom? [] t, show cutDelimiterFrom? [] t = _ from h]

theorem quoteAfter_none_of_cutDelimiter?_eq_none {t : Text} (h : cutDelimiter? t = none) :
    quoteAfter none t = none := by
  rw [quoteAfter_none_eq_cutDelimiterFrom? [] t, show cutDelimiterFrom? [] t = _ from h]

/-! ## Lines that close a string -/

/-- Somewhere in the text a string is open, and further on none is. -/
def ClosesString (quote : Option Delimiter) (t : Text) : Prop :=
  ∃ p₁ p₂, p₁ <+: p₂ ∧ p₂ <+: t ∧ (quoteAfter quote p₁).isSome = true ∧ quoteAfter quote p₂ = none

/-- An open string is closed where its delimiter stands. -/
theorem closesString_some_iff {q : Delimiter} {t : Text} :
    ClosesString (some q) t ↔ q.chars <:+: t := by
  constructor
  · rintro ⟨p₁, p₂, -, h₂, -, hnone⟩
    by_contra hq
    rw [quoteAfter_some_of_not_occurs fun h => hq (h.trans h₂.isInfix)] at hnone
    exact absurd hnone (by simp)
  · intro hq
    obtain ⟨⟨a, b⟩, hcut⟩ := Option.isSome_iff_exists.1 (contains_eq_true_iff.2 hq)
    refine ⟨[], a ++ (q.chars ++ []), List.nil_prefix, ⟨b, ?_⟩, ?_, ?_⟩
    · rw [eq_of_cut? hcut, List.append_nil]
    · rw [quoteAfter_nil, Option.isSome_some]
    · rw [quoteAfter_some_of_cut? (cut?_append_of_cut? q.chars_ne_nil hcut []), quoteAfter_nil]

/-- Outside of strings, one is closed when the first delimiter occurs again behind itself. -/
theorem closesString_none_iff {t : Text} :
    ClosesString none t ↔ ∃ a q b, cutDelimiter? t = some (a, q, b) ∧ q.chars <:+: b := by
  constructor
  · rintro ⟨p₁, p₂, ⟨u₁, rfl⟩, ⟨u₂, rfl⟩, hsome, hnone⟩
    -- the first delimiter of `p₁` is the first one of `p₂` and of the whole text
    obtain ⟨⟨a, q, b⟩, hcut⟩ : ∃ cut, cutDelimiter? p₁ = some cut := by
      rw [← Option.isSome_iff_exists]
      by_contra hcut
      rw [quoteAfter_none_of_cutDelimiter?_eq_none (Option.not_isSome_iff_eq_none.1 hcut)] at hsome
      exact absurd hsome (by simp)
    have hcut₁ := cutDelimiter?_append_right hcut u₁
    have hcut₂ := cutDelimiter?_append_right hcut₁ u₂
    refine ⟨a, q, b ++ u₁ ++ u₂, hcut₂, ?_⟩
    by_contra hq
    rw [quoteAfter_none_of_cutDelimiter? hcut₁, quoteAfter_some_of_not_occurs fun h =>
      hq (h.trans (List.prefix_append _ u₂).isInfix)] at hnone
    exact absurd hnone (by simp)
  · rintro ⟨a, q, b, hcut, hq⟩
    obtain ⟨⟨body, rest⟩, hbody⟩ := Option.isSome_iff_exists.1 (contains_eq_true_iff.2 hq)
    have hopen := fun u => quoteAfter_none_of_cutDelimiter?
      (cutDelimiter?_append_of_cutDelimiter? hcut u)
    refine ⟨a ++ (q.chars ++ []), a ++ (q.chars ++ (body ++ (q.chars ++ []))), ?_, ?_, ?_, ?_⟩
    · exact ⟨body ++ q.chars, by simp⟩
    · refine ⟨rest, ?_⟩
      rw [eq_of_cutDelimiter? hcut, eq_of_cut? hbody]
      simp
    · rw [hopen, quoteAfter_nil, Option.isSome_some]
    · rw [hopen, quoteAfter_some_of_cut? (cut?_append_of_cut? q.chars_ne_nil hbody []),
        quoteAfter_nil]

/-! ## The tracker -/

/-- The text closes a string and leaves one open. -/
def Reopens (quote : Option Delimiter) (t : Text) : Prop :=
  ClosesString quote t ∧ (quoteAfter quote t).isSome = true

namespace StringTracker

open Classical in
/-- **The tracker takes a line that closes a string to end closed**, and agrees with the scan of the
characters on every other line. -/
theorem quote_feed (s : StringTracker) (line : Text) :
    (s.feed line).2.quote =
      if ClosesString s.quote line then none else quoteAfter s.quote line := by
  cases hs : s.quote with
  | some q =>
    rw [closesString_some_iff]
    cases hcut : cut? q.chars line with
    | some cut =>
      have hq : q.chars <:+: line := contains_eq_true_iff.1 (by rw [contains, hcut]; rfl)
      rw [if_pos hq]
      simp only [feed, hs, hcut]
    | none =>
      have hq : ¬ q.chars <:+: line := cut?_eq_none_iff.1 hcut
      rw [if_neg hq, quoteAfter_some_of_not_occurs hq]
      simp only [feed, hs, hcut]
  | none =>
    rw [closesString_none_iff]
    cases hcut : cutDelimiter? line with
    | none =>
      rw [if_neg (by simp), quoteAfter_none_of_cutDelimiter?_eq_none hcut]
      simp only [feed, hs, hcut]
    | some cut =>
      obtain ⟨a, q, b⟩ := cut
      have hiff : (∃ a' q' b', some (a, q, b) = some (a', q', b') ∧ q'.chars <:+: b') ↔
          q.chars <:+: b := by
        constructor
        · rintro ⟨_, _, _, ⟨⟩, hq⟩
          exact hq
        · exact fun hq => ⟨a, q, b, rfl, hq⟩
      rw [hiff, quoteAfter_none_of_cutDelimiter? hcut]
      cases hbody : cut? q.chars b with
      | some body =>
        rw [if_pos (contains_eq_true_iff.1 (by rw [contains, hbody]; rfl))]
        simp only [feed, hs, hcut, hbody]
      | none =>
        have hq : ¬ q.chars <:+: b := cut?_eq_none_iff.1 hbody
        rw [if_neg hq, quoteAfter_some_of_not_occurs hq]
        simp only [feed, hs, hcut, hbody]

/-- What a tracker does with a line depends on the open string only, up to the text it keeps. -/
theorem quote_feed_congr {s t : StringTracker} (h : s.quote = t.quote) (line : Text) :
    (s.feed line).2.quote = (t.feed line).2.quote := by
  rw [quote_feed, quote_feed, h]

/-- A line belongs to a string if one is open, or if a delimiter occurs. -/
theorem feed_fst (s : StringTracker) (line : Text) :
    (s.feed line).1 = (s.quote.isSome || (cutDelimiter? line).isSome) := by
  cases hs : s.quote with
  | some q => cases hcut : cut? q.chars line <;> simp [feed, hs, hcut]
  | none =>
    cases hcut : cutDelimiter? line with
    | none => simp [feed, hs, hcut]
    | some cut => cases hbody : cut? cut.2.1.chars cut.2.2 <;> simp [feed, hs, hcut, hbody]

theorem quote_feed_eq_iff (s : StringTracker) (line : Text) :
    (s.feed line).2.quote = quoteAfter s.quote line ↔ ¬ Reopens s.quote line := by
  rw [quote_feed, Reopens, not_and, Option.not_isSome_iff_eq_none]
  split
  · next h => exact ⟨fun heq _ => heq.symm, fun himp => (himp h).symm⟩
  · next h => exact ⟨fun _ hc => absurd hc h, fun _ => rfl⟩

/-- A tracker that has been fed some lines. -/
def feedAll (s : StringTracker) (lines : List Text) : StringTracker :=
  lines.foldl (fun s line => (s.feed line).2) s

theorem feedAll_append_singleton (s : StringTracker) (lines : List Text) (line : Text) :
    s.feedAll (lines ++ [line]) = ((s.feedAll lines).feed line).2 := by
  rw [feedAll, List.foldl_append]
  rfl

end StringTracker

/-- The delimiter of the string that is open behind some lines, read character by character. -/
def quoteAfterLines (lines : List Text) : Option Delimiter := lines.foldl quoteAfter none

theorem quoteAfterLines_append_singleton (lines : List Text) (line : Text) :
    quoteAfterLines (lines ++ [line]) = quoteAfter (quoteAfterLines lines) line := by
  rw [quoteAfterLines, List.foldl_append]
  rfl

/-- **The tracker follows the characters exactly as long as no line closes a string and leaves one
open.** Behind each of the lines it has the delimiter of the string that is open there, if for each
of them the string open before it is not closed, or no string is left open; and only then. -/
theorem quote_feedAll_iff (lines : List Text) :
    (∀ read, read <+: lines → (({} : StringTracker).feedAll read).quote = quoteAfterLines read) ↔
      ∀ read line, read ++ [line] <+: lines → ¬ Reopens (quoteAfterLines read) line := by
  constructor
  · intro h read line hread
    rw [← h read ((List.prefix_append read [line]).trans hread), ← StringTracker.quote_feed_eq_iff,
      ← StringTracker.feedAll_append_singleton, h _ hread, quoteAfterLines_append_singleton,
      h read ((List.prefix_append read [line]).trans hread)]
  · intro h read hread
    -- line by line, from the first one on
    induction read using List.reverseRecOn with
    | nil => rfl
    | append_singleton read line ih =>
      have hquote := ih ((List.prefix_append read [line]).trans hread)
      have hline := h read line hread
      rw [← hquote, ← StringTracker.quote_feed_eq_iff] at hline
      rw [StringTracker.feedAll_append_singleton, quoteAfterLines_append_singleton, hline, hquote]

/-- A string is left open behind a line that closes one before, and the tracker is closed. -/
theorem quote_feedAll_ne :
    (({} : StringTracker).feedAll ["x = \"\"\"a\"\"\" + \"\"\"b".toList]).quote = none ∧
      quoteAfterLines ["x = \"\"\"a\"\"\" + \"\"\"b".toList] = some .double := by
  decide

end CodeIndex.Text
