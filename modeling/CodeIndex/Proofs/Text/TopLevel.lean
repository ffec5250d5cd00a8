import CodeIndex.Proofs.Text.Bracket

/-!
# Separators at the top level

A place of a text is at the top level when no quote is open behind what stands before it
(`openQuote`) and when that opens as many brackets outside of quotes as it closes (`bracketDepth`).
The depth is signed, brackets of different kinds count alike, and quotes may stay open.
`splitTopLevel` cuts a text at the separators that stand at such places and at no others
(`IsSplit`), and only a single character that is neither a quote nor a bracket separates
(`splitTopLevel_cuts`).

Everything follows from two equations about the first separator at the top level: a text without one
is one piece (`topLevelPieces_of_uncut`), and the pieces of a text with one are what stands before
it and the pieces of what stands behind it (`topLevelPieces_append`). `CutsInto` lists the pieces in
that way.

Each piece but the last ends at the top level, and blanks around it do not change this. So any of
the trimmed pieces, joined by commas again, are cut at these commas
(`arguments_commaList_of_sublist`).
-/

namespace CodeIndex.Text

/-! ## Quotes and brackets before a place -/

/-- The quote that is open behind one more character. A quote ends at the next same character. -/
def quoteStep : (quote : Option Char) → Char → Option Char
  | some q, c => if c = q then none else some q
  | none, c => if isQuote c then some c else none

/-- The quote that is open behind a text. -/
def openQuote (t : Text) : Option Char := t.foldl quoteStep none

/-- The characters outside of quotes, when `quote` is open before the text. -/
def unquoted : (quote : Option Char) → Text → Text
  | _, [] => []
  | some q, c :: t => unquoted (quoteStep (some q) c) t
  | none, c :: t => c :: unquoted (quoteStep none c) t

/-- The character opens a bracket. -/
def isOpening (c : Char) : Bool := c = '(' || c = '[' || c = '\x7b'

/-- The character closes a bracket. -/
def isClosing (c : Char) : Bool := c = ')' || c = ']' || c = '\x7d'

/-- How many more brackets a text opens than it closes, outside of quotes. -/
def bracketDepth (t : Text) : Int :=
  ((unquoted none t).countP isOpening : Int) - (unquoted none t).countP isClosing

/-- Behind the text no quote and no bracket is open. -/
structure AtTop (t : Text) : Prop where
  noQuote : openQuote t = none
  level : bracketDepth t = 0

instance (t : Text) : Decidable (AtTop t) :=
  decidable_of_iff (openQuote t = none ∧ bracketDepth t = 0)
    ⟨fun h => ⟨h.1, h.2⟩, fun h => ⟨h.noQuote, h.level⟩⟩

theorem openQuote_concat (t : Text) (c : Char) :
    openQuote (t ++ [c]) = quoteStep (openQuote t) c := by
  rw [openQuote, List.foldl_append]
  rfl

theorem unquoted_append (quote : Option Char) (s t : Text) :
    unquoted quote (s ++ t) = unquoted quote s ++ unquoted (s.foldl quoteStep quote) t := by
  induction s generalizing quote with
  | nil => cases quote <;> rfl
  | cons c s ih =>
    cases quote with
    | none => rw [List.cons_append, unquoted, ih, unquoted, List.foldl_cons, List.cons_append]
    | some q => rw [List.cons_append, unquoted, ih, unquoted, List.foldl_cons]

/-- What a character adds to the number of open brackets. -/
def bracketStep (c : Char) : Int := if isOpening c then 1 else if isClosing c then -1 else 0

theorem bracketStep_eq (c : Char) :
    bracketStep c = ([c].countP isOpening : Int) - [c].countP isClosing := by
  have hone : isOpening c = true → isClosing c = false := by
    intro h
    simp only [isOpening, Bool.or_eq_true, decide_eq_true_eq] at h
    rcases h with (rfl | rfl) | rfl <;> decide
  rw [bracketStep, List.countP_singleton, List.countP_singleton]
  split
  · next h => simp [hone h]
  · split <;> rfl

/-- A bracket counts where no quote is open. -/
theorem bracketDepth_concat (t : Text) (c : Char) :
    bracketDepth (t ++ [c]) = bracketDepth t + if openQuote t = none then bracketStep c else 0 := by
  have hquote : t.foldl quoteStep none = openQuote t := rfl
  rw [bracketDepth, unquoted_append, hquote, List.countP_append, List.countP_append, bracketDepth]
  cases openQuote t with
  | none =>
    have hlast : unquoted none [c] = [c] := rfl
    rw [hlast, if_pos rfl, bracketStep_eq]
    omega
  | some q =>
    have hlast : unquoted (some q) [c] = [] := rfl
    have hquoted : ¬ some q = none := Option.some_ne_none q
    rw [hlast, if_neg hquoted, List.countP_nil, List.countP_nil]
    omega

/-- Behind a text with no open quote, everything is as at the start. -/
theorem openQuote_append {s : Text} (hs : openQuote s = none) (t : Text) :
    openQuote (s ++ t) = openQuote t := by
  rw [openQuote, List.foldl_append]
  exact congrArg (t.foldl quoteStep) hs

theorem bracketDepth_append {s : Text} (hs : openQuote s = none) (t : Text) :
    bracketDepth (s ++ t) = bracketDepth s + bracketDepth t := by
  have hquote : s.foldl quoteStep none = none := hs
  rw [bracketDepth, unquoted_append, hquote, List.countP_append, List.countP_append, bracketDepth,
    bracketDepth]
  omega

theorem isQuote_of_openQuote {t : Text} {q : Char} (h : openQuote t = some q) :
    isQuote q = true := by
  induction t using List.reverseRecOn with
  | nil => exact absurd h (by simp [openQuote])
  | append_singleton t c ih =>
    rw [openQuote_concat] at h
    cases hquote : openQuote t with
    | none =>
      rw [hquote, quoteStep] at h
      split at h
      · next hc => exact Option.some.inj h ▸ hc
      · exact absurd h (by simp)
    | some p =>
      rw [hquote, quoteStep] at h
      split at h
      · exact absurd h (by simp)
      · exact ih (hquote.trans h)

theorem bracketStep_of_isBracket {c : Char} (h : isBracket c = false) : bracketStep c = 0 := by
  simp only [isBracket, Bool.or_eq_false_iff, decide_eq_false_iff_not] at h
  simp [bracketStep, isOpening, isClosing, h]

namespace AtTop

theorem nil : AtTop [] := ⟨rfl, rfl⟩

theorem append_iff {s : Text} (hs : AtTop s) (t : Text) : AtTop (s ++ t) ↔ AtTop t := by
  have hquote := openQuote_append hs.noQuote t
  have hdepth := bracketDepth_append hs.noQuote t
  rw [hs.level, Int.zero_add] at hdepth
  exact ⟨fun h => ⟨hquote ▸ h.noQuote, hdepth ▸ h.level⟩,
    fun h => ⟨hquote ▸ h.noQuote, hdepth ▸ h.level⟩⟩

/-- A character that is neither a quote nor a bracket does not leave the top level. -/
theorem concat {t : Text} (ht : AtTop t) {c : Char} (hq : isQuote c = false)
    (hb : isBracket c = false) : AtTop (t ++ [c]) := by
  constructor
  · rw [openQuote_concat, ht.noQuote, quoteStep, if_neg (by simp [hq])]
  · rw [bracketDepth_concat, ht.level, if_pos ht.noQuote, bracketStep_of_isBracket hb]
    rfl

end AtTop

/-! ## The first separator at the top level -/

/-- The texts that separate are single characters, neither quotes nor brackets. -/
structure Separates (sep : Text) (c : Char) : Prop where
  eq : sep = [c]
  notQuote : isQuote c = false
  notBracket : isBracket c = false

/-- No separator stands at the top level. -/
def Uncut (sep t : Text) : Prop := ∀ u c, u ++ [c] <+: t → Separates sep c → ¬ AtTop u

section Pieces

variable {sep a b t : Text} {c : Char}

theorem Uncut.nil (sep : Text) : Uncut sep [] :=
  fun u c h => absurd (List.prefix_nil.1 h) (by simp)

theorem uncut_concat_iff : Uncut sep (t ++ [c]) ↔ Uncut sep t ∧ ¬ (Separates sep c ∧ AtTop t) := by
  constructor
  · intro h
    exact ⟨fun u d hu => h u d (hu.trans (List.prefix_append t [c])),
      fun hcut => h t c (List.prefix_refl _) hcut.1 hcut.2⟩
  · rintro ⟨ht, hc⟩ u d hu hd htop
    rcases List.prefix_concat_iff.1 hu with heq | hu
    · obtain ⟨rfl, hdc⟩ := List.append_inj heq (by simpa using congrArg List.length heq)
      obtain rfl := List.singleton_inj.1 hdc
      exact hc ⟨hd, htop⟩
    · exact ht u d hu hd htop

/-- A character that does not cut becomes part of the piece. -/
theorem piecesFrom_cons (h : ¬ (Separates sep c ∧ AtTop a)) (piece t : Text) :
    piecesFrom sep (bracketDepth a) (openQuote a) piece (c :: t) =
      piecesFrom sep (bracketDepth (a ++ [c])) (openQuote (a ++ [c])) (c :: piece) t := by
  rw [bracketDepth_concat, openQuote_concat]
  cases hquote : openQuote a with
  | some q =>
    have hquoted : ¬ some q = none := Option.some_ne_none q
    rw [piecesFrom, if_neg hquoted, Int.add_zero, quoteStep]
  | none =>
    rw [if_pos rfl, piecesFrom]
    by_cases hq : c = '"' ∨ c = '\''
    · have hstep : bracketStep c = 0 := by rcases hq with rfl | rfl <;> decide
      have hopens : quoteStep none c = some c := if_pos (by simpa [isQuote] using hq)
      rw [if_pos hq, hstep, Int.add_zero, hopens]
    · have hisQuote : isQuote c = false := by simpa [isQuote] using hq
      have hstays : quoteStep none c = none := if_neg (by simp [hisQuote])
      rw [if_neg hq, hstays]
      by_cases hopening : c = '(' ∨ c = '[' ∨ c = '\x7b'
      · have hstep : bracketStep c = 1 := by rcases hopening with rfl | rfl | rfl <;> rfl
        rw [if_pos hopening, hstep]
      · rw [if_neg hopening]
        by_cases hclosing : c = ')' ∨ c = ']' ∨ c = '\x7d'
        · have hstep : bracketStep c = -1 := by rcases hclosing with rfl | rfl | rfl <;> rfl
          rw [if_pos hclosing, hstep, Int.sub_eq_add_neg]
        · have hbracket : isBracket c = false := by
            simp only [isBracket, Bool.or_eq_false_iff, decide_eq_false_iff_not]
            tauto
          have hkeep : ¬ (sep = [c] ∧ bracketDepth a = 0) :=
            fun hcut => h ⟨⟨hcut.1, hisQuote, hbracket⟩, hquote, hcut.2⟩
          rw [if_neg hclosing, if_neg hkeep, bracketStep_of_isBracket hbracket, Int.add_zero]

/-- A separator at the top level ends the piece. -/
theorem piecesFrom_separator (hc : Separates sep c) (ha : AtTop a) (piece t : Text) :
    piecesFrom sep (bracketDepth a) (openQuote a) piece (c :: t) =
      piece.reverse :: topLevelPieces sep t := by
  have hq := hc.notQuote
  have hb := hc.notBracket
  simp only [isQuote, Bool.or_eq_false_iff, decide_eq_false_iff_not] at hq
  simp only [isBracket, Bool.or_eq_false_iff, decide_eq_false_iff_not] at hb
  rw [ha.noQuote, ha.level, piecesFrom, if_neg (by tauto), if_neg (by tauto), if_neg (by tauto),
    if_pos ⟨hc.eq, rfl⟩, topLevelPieces]

/-- The search passes over a text without a separator at the top level. -/
theorem topLevelPieces_eq_piecesFrom (ha : Uncut sep a) (t : Text) :
    topLevelPieces sep (a ++ t) =
      piecesFrom sep (bracketDepth a) (openQuote a) a.reverse t := by
  induction a using List.reverseRecOn generalizing t with
  | nil => rfl
  | append_singleton a c ih =>
    obtain ⟨ha, hc⟩ := uncut_concat_iff.1 ha
    rw [List.append_assoc, List.singleton_append, ih ha, piecesFrom_cons hc, List.reverse_append]
    rfl

/-- **A text without a separator at the top level is one piece.** -/
theorem topLevelPieces_of_uncut (ht : Uncut sep t) : topLevelPieces sep t = [t] := by
  have hpieces := topLevelPieces_eq_piecesFrom ht []
  rwa [List.append_nil, piecesFrom, List.reverse_reverse] at hpieces

/-- **A text is cut at its first separator at the top level**, and behind it as from the start. -/
theorem topLevelPieces_append (ha : Uncut sep a) (htop : AtTop a) (hc : Separates sep c)
    (b : Text) : topLevelPieces sep (a ++ c :: b) = a :: topLevelPieces sep b := by
  rw [topLevelPieces_eq_piecesFrom ha, piecesFrom_separator hc htop, List.reverse_reverse]

theorem uncut_or_exists_cut (sep t : Text) :
    Uncut sep t ∨ ∃ a c b, t = a ++ c :: b ∧ Uncut sep a ∧ AtTop a ∧ Separates sep c := by
  induction t using List.reverseRecOn with
  | nil => exact .inl (.nil sep)
  | append_singleton t c ih =>
    rcases ih with ht | ⟨a, d, b, rfl, hcut⟩
    · by_cases hc : Separates sep c ∧ AtTop t
      · exact .inr ⟨t, c, [], rfl, ht, hc.2, hc.1⟩
      · exact .inl (uncut_concat_iff.2 ⟨ht, hc⟩)
    · exact .inr ⟨a, d, b ++ [c], by simp, hcut⟩

/-- The text is cut into these pieces, from one separator at the top level to the next. -/
inductive CutsInto (sep : Text) : Text → List Text → Prop
  | last {t : Text} (ht : Uncut sep t) : CutsInto sep t [t]
  | cons {a b : Text} {c : Char} {pieces : List Text} (ha : Uncut sep a) (htop : AtTop a)
      (hc : Separates sep c) (hb : CutsInto sep b pieces) : CutsInto sep (a ++ c :: b) (a :: pieces)

theorem cutsInto_topLevelPieces (sep t : Text) : CutsInto sep t (topLevelPieces sep t) := by
  -- by induction on the length, as what stands behind a separator is shorter
  induction hn : t.length using Nat.strong_induction_on generalizing t with
  | _ n ih =>
    rcases uncut_or_exists_cut sep t with ht | ⟨a, c, b, rfl, ha, htop, hc⟩
    · rw [topLevelPieces_of_uncut ht]
      exact .last ht
    · rw [topLevelPieces_append ha htop hc]
      rw [List.length_append, List.length_cons] at hn
      exact .cons ha htop hc (ih b.length (by omega) b rfl)

theorem CutsInto.eq {pieces : List Text} (h : CutsInto sep t pieces) :
    pieces = topLevelPieces sep t := by
  induction h with
  | last ht => rw [topLevelPieces_of_uncut ht]
  | cons ha htop hc _ ih => rw [topLevelPieces_append ha htop hc, ih]

theorem CutsInto.ne_nil {pieces : List Text} (h : CutsInto sep t pieces) : pieces ≠ [] := by
  cases h <;> exact List.cons_ne_nil _ _

end Pieces

/-! ## Cuts by their places -/

/-- The places of the separators, of one character each, between the pieces of a text. -/
def separatorPlaces : List Text → List Nat
  | p :: q :: pieces => p.length :: (separatorPlaces (q :: pieces)).map (p.length + 1 + ·)
  | _ => []

/-- A separator stands at the top level at this place. -/
structure IsCut (sep : Char) (t : Text) (i : Nat) : Prop where
  separator : t[i]? = some sep
  atTop : AtTop (t.take i)

/-- The text is the pieces with the separator between them, and the separators between them are
those that stand at the top level. A text is at least one piece. -/
structure IsSplit (sep : Char) (t : Text) (pieces : List Text) : Prop where
  nonempty : pieces ≠ []
  joined : join [sep] pieces = t
  cuts : ∀ i, i ∈ separatorPlaces pieces ↔ IsCut sep t i

section Split

variable {sep : Char} {a b p t : Text} {pieces : List Text}

theorem isCut_iff {i : Nat} : IsCut sep t i ↔ t[i]? = some sep ∧ AtTop (t.take i) :=
  ⟨fun h => ⟨h.separator, h.atTop⟩, fun h => ⟨h.1, h.2⟩⟩

theorem isCut_length_iff : IsCut sep (a ++ sep :: b) a.length ↔ AtTop a := by
  simp [isCut_iff]

theorem isCut_append_left_iff {i : Nat} (hi : i < a.length) :
    IsCut sep (a ++ b) i ↔ IsCut sep a i := by
  rw [isCut_iff, isCut_iff, List.getElem?_append_left hi, List.take_append_of_le_length hi.le]

/-- Behind a separator at the top level, the cuts are those of the rest. -/
theorem isCut_append_right_iff (hs : Separates [sep] sep) (ha : AtTop a) {i : Nat} :
    IsCut sep (a ++ sep :: b) (a.length + 1 + i) ↔ IsCut sep b i := by
  have hsplit : a ++ sep :: b = (a ++ [sep]) ++ b := by simp
  have hlength : a.length + 1 + i = (a ++ [sep]).length + i := by simp
  have htop : AtTop (a ++ [sep]) := ha.concat hs.notQuote hs.notBracket
  rw [isCut_iff, isCut_iff, hsplit, hlength, List.getElem?_append_right (Nat.le_add_right _ _),
    Nat.add_sub_cancel_left, List.take_length_add_append, htop.append_iff]

theorem uncut_iff_isCut (hs : Separates [sep] sep) : Uncut [sep] t ↔ ∀ i, ¬ IsCut sep t i := by
  constructor
  · rintro h i ⟨hi, htop⟩
    refine h (t.take i) sep ?_ hs htop
    obtain ⟨hlt, hget⟩ := List.getElem?_eq_some_iff.1 hi
    rw [← hget, List.take_concat_get' t i hlt]
    exact List.take_prefix _ t
  · rintro h u c ⟨v, rfl⟩ hc htop
    obtain rfl := List.singleton_inj.1 hc.eq
    rw [List.append_assoc, List.singleton_append] at h
    exact h u.length (isCut_length_iff.2 htop)

theorem isSplit_singleton_iff (hs : Separates [sep] sep) :
    IsSplit sep t [p] ↔ p = t ∧ Uncut [sep] t := by
  rw [uncut_iff_isCut hs]
  constructor
  · rintro ⟨-, hjoined, hcuts⟩
    exact ⟨by simpa using hjoined, fun i hi => absurd ((hcuts i).2 hi) (by simp [separatorPlaces])⟩
  · rintro ⟨rfl, huncut⟩
    exact ⟨List.cons_ne_nil _ _, join_singleton _ p, fun i =>
      ⟨fun hi => absurd hi (by simp [separatorPlaces]), fun hi => absurd hi (huncut i)⟩⟩

theorem isSplit_cons_cons_iff (hs : Separates [sep] sep) {q : Text} :
    IsSplit sep t (p :: q :: pieces) ↔
      ∃ b, t = p ++ sep :: b ∧ Uncut [sep] p ∧ AtTop p ∧ IsSplit sep b (q :: pieces) := by
  have hplaces {i : Nat} : i ∈ separatorPlaces (p :: q :: pieces) ↔
      i = p.length ∨ ∃ j ∈ separatorPlaces (q :: pieces), p.length + 1 + j = i := by
    rw [separatorPlaces, List.mem_cons, List.mem_map]
  constructor
  · rintro ⟨-, hjoined, hcuts⟩
    have ht : t = p ++ sep :: join [sep] (q :: pieces) := by
      rw [← hjoined, join_cons_cons]
      rfl
    subst ht
    simp only [hplaces] at hcuts
    have htop : AtTop p := isCut_length_iff.1 ((hcuts p.length).1 (.inl rfl))
    refine ⟨_, rfl, (uncut_iff_isCut hs).2 fun i hi => ?_, htop, List.cons_ne_nil _ _, rfl,
      fun i => ?_⟩
    · -- all cuts are at the end of the first piece or behind it
      have hlt : i < p.length := (List.getElem?_eq_some_iff.1 hi.separator).1
      rcases (hcuts i).2 ((isCut_append_left_iff hlt).2 hi) with heq | ⟨j, -, heq⟩
      · omega
      · omega
    · rw [← isCut_append_right_iff hs htop, ← hcuts]
      constructor
      · exact fun hi => .inr ⟨i, hi, rfl⟩
      · rintro (heq | ⟨j, hj, heq⟩)
        · omega
        · rwa [← Nat.add_left_cancel heq]
  · rintro ⟨b, rfl, huncut, htop, hb⟩
    refine ⟨List.cons_ne_nil _ _, ?_, fun i => ?_⟩
    · rw [join_cons_cons, hb.joined]
      rfl
    · rw [hplaces]
      simp only [hb.cuts]
      rcases Nat.lt_trichotomy i p.length with hlt | rfl | hlt
      · rw [isCut_append_left_iff hlt]
        refine ⟨?_, fun hi => absurd hi ((uncut_iff_isCut hs).1 huncut i)⟩
        rintro (heq | ⟨j, -, heq⟩)
        · omega
        · omega
      · exact iff_of_true (.inl rfl) (isCut_length_iff.2 htop)
      · obtain ⟨j, rfl⟩ := Nat.exists_eq_add_of_le hlt
        rw [Nat.succ_eq_add_one, isCut_append_right_iff hs htop]
        constructor
        · rintro (heq | ⟨k, hk, heq⟩)
          · omega
          · rwa [← Nat.add_left_cancel heq]
        · exact fun hj => .inr ⟨j, hj, rfl⟩

/-- **The pieces between the separators at the top level are found one after the other.** -/
theorem isSplit_iff_cutsInto (hs : Separates [sep] sep) :
    IsSplit sep t pieces ↔ CutsInto [sep] t pieces := by
  constructor
  · intro h
    induction pieces generalizing t with
    | nil => exact absurd rfl h.nonempty
    | cons p pieces ih =>
      cases pieces with
      | nil =>
        obtain ⟨rfl, huncut⟩ := (isSplit_singleton_iff hs).1 h
        exact .last huncut
      | cons q pieces =>
        obtain ⟨b, rfl, huncut, htop, hb⟩ := (isSplit_cons_cons_iff hs).1 h
        exact .cons huncut htop hs (ih hb)
  · intro h
    induction h with
    | last huncut => exact (isSplit_singleton_iff hs).2 ⟨rfl, huncut⟩
    | @cons a b c pieces huncut htop hc hb ih =>
      obtain rfl := List.singleton_inj.1 hc.eq
      obtain ⟨q, pieces, rfl⟩ := List.exists_cons_of_ne_nil hb.ne_nil
      exact (isSplit_cons_cons_iff hs).2 ⟨b, rfl, huncut, htop, ih⟩

end Split

/-- **A text is cut exactly at the separators at the top level, and nothing is lost.** For a
separator of one character that is neither a quote nor a bracket, there is one list of pieces of the
text with exactly the separators at the top level between them, and the result is these pieces,
trimmed, without the empty ones. With any other separator the text is not cut. -/
theorem splitTopLevel_cuts (t : Text) :
    (∀ sep : Char, isQuote sep = false → isBracket sep = false →
      (∃! pieces, IsSplit sep t pieces) ∧
        ∀ pieces, IsSplit sep t pieces →
          splitTopLevel [sep] t = (pieces.map trim).filter (· ≠ [])) ∧
    ∀ sep : Text, (∀ c, sep = [c] → isQuote c = true ∨ isBracket c = true) →
      splitTopLevel sep t = if trim t = [] then [] else [trim t] := by
  constructor
  · intro sep hq hb
    have hsplit {pieces : List Text} : IsSplit sep t pieces ↔ CutsInto [sep] t pieces :=
      isSplit_iff_cutsInto ⟨rfl, hq, hb⟩
    refine ⟨⟨topLevelPieces [sep] t, hsplit.2 (cutsInto_topLevelPieces [sep] t), ?_⟩, ?_⟩
    · exact fun pieces h => (hsplit.1 h).eq
    · intro pieces h
      rw [splitTopLevel, (hsplit.1 h).eq]
  · intro sep hsep
    have huncut : Uncut sep t := by
      intro u c _ hc _
      rcases hsep c hc.eq with hq | hb
      · exact absurd (hq.symm.trans hc.notQuote) (by simp)
      · exact absurd (hb.symm.trans hc.notBracket) (by simp)
    rw [splitTopLevel, topLevelPieces_of_uncut huncut]
    by_cases hnil : trim t = []
    · simp [hnil]
    · simp [hnil]

/-- Brackets that close before they open, brackets of two kinds and a quote that stays open: two
commas cut, and no bracket does. -/
theorem splitTopLevel_cuts_unbalanced :
    isQuote ',' = false ∧ isBracket ',' = false ∧ isBracket ')' = true ∧
      (∃! pieces, IsSplit ',' ")a[, b(c,], 'd,".toList pieces) ∧
      splitTopLevel [')'] ")a[, b(c,], 'd,".toList = [")a[, b(c,], 'd,".toList] ∧
      splitTopLevel [','] ")a[, b(c,], 'd,".toList =
        [")a[".toList, "b(c,]".toList, "'d,".toList] := by
  have hcuts := splitTopLevel_cuts ")a[, b(c,], 'd,".toList
  refine ⟨by decide, by decide, by decide, (hcuts.1 ',' (by decide) (by decide)).1, ?_, by decide⟩
  rw [hcuts.2 [')'] (by simp [isBracket])]
  decide

/-! ## Joining the pieces again -/

section Blanks

variable {s t u : Text} (hs : ∀ c ∈ s, isBlank c = true)
include hs

theorem AtTop.of_isBlank : AtTop s := by
  induction s using List.reverseRecOn with
  | nil => exact .nil
  | append_singleton s c ih =>
    obtain ⟨hb, hq⟩ := plain_of_isBlank (hs c (by simp))
    exact (ih fun d hd => hs d (by simp [hd])).concat hq hb

/-- Blanks close no quote. -/
theorem AtTop.of_append_blanks (h : AtTop (t ++ s)) : AtTop t := by
  induction s using List.reverseRecOn with
  | nil => rwa [List.append_nil] at h
  | append_singleton s c ih =>
    obtain ⟨hb, hq⟩ := plain_of_isBlank (hs c (by simp))
    refine ih (fun d hd => hs d (by simp [hd])) ?_
    obtain ⟨hquote, hdepth⟩ := h
    rw [← List.append_assoc] at hquote hdepth
    have hnone : openQuote (t ++ s) = none := by
      by_contra hsome
      obtain ⟨q, hopen⟩ := Option.ne_none_iff_exists'.1 hsome
      rw [openQuote_concat, hopen, quoteStep] at hquote
      split at hquote
      · next heq =>
        rw [heq, isQuote_of_openQuote hopen] at hq
        exact absurd hq (by simp)
      · exact absurd hquote (by simp)
    rw [bracketDepth_concat, if_pos hnone, bracketStep_of_isBracket hb, Int.add_zero] at hdepth
    exact ⟨hnone, hdepth⟩

end Blanks

theorem AtTop.trim {t : Text} (ht : AtTop t) : AtTop (trim t) := by
  obtain ⟨s, u, hs, hu, heq⟩ := exists_blanks_append_trim t
  rw [heq, (AtTop.of_isBlank hs).append_iff] at ht
  exact .of_append_blanks hu ht

namespace Uncut

variable {sep s t : Text}

theorem append (hs : Uncut sep s) (htop : AtTop s) (ht : Uncut sep t) : Uncut sep (s ++ t) := by
  intro u c hu hc hu'
  rcases List.prefix_or_prefix_of_prefix hu (List.prefix_append s t) with hle | ⟨v, hv⟩
  · exact hs u c hle hc hu'
  · -- the separator is the last character of `s`, or stands in `t`
    induction v using List.reverseRecOn with
    | nil => exact hs u c (by rw [← hv, List.append_nil]) hc hu'
    | append_singleton v d _ =>
      rw [← List.append_assoc] at hv
      obtain ⟨rfl, hd⟩ := List.append_inj' hv rfl
      obtain rfl := List.singleton_inj.1 hd
      rw [List.append_assoc, List.prefix_append_right_inj] at hu
      exact ht v d hu hc ((htop.append_iff v).1 hu')

theorem of_append (htop : AtTop s) (h : Uncut sep (s ++ t)) : Uncut sep t := by
  intro u c hu hc hu'
  refine h (s ++ u) c ?_ hc ((htop.append_iff u).2 hu')
  rw [List.append_assoc, List.prefix_append_right_inj]
  exact hu

theorem trim (ht : Uncut sep t) : Uncut sep (trim t) := by
  obtain ⟨s, u, hs, -, heq⟩ := exists_blanks_append_trim t
  rw [heq] at ht
  have hrest := of_append (.of_isBlank hs) ht
  exact fun v c hv => hrest v c (hv.trans (List.prefix_append _ u))

theorem of_isBlank (hs : ∀ c ∈ s, isBlank c = true) : Uncut [','] s := by
  rintro u c hu hc -
  obtain rfl := List.singleton_inj.1 hc.eq
  exact absurd (hs ',' (hu.subset (by simp))) (by decide)

end Uncut

/-- Texts that are read back when commas are put between them: no comma stands at the top level of
any of them, no blanks surround them, and all but the last end at the top level. -/
structure IsArgumentList (args : List Text) : Prop where
  solid : ∀ a ∈ args, Solid a
  uncut : ∀ a ∈ args, Uncut [','] a
  atTop : args.Pairwise fun a _ => AtTop a

theorem CutsInto.uncut {sep t : Text} {pieces : List Text} (h : CutsInto sep t pieces) :
    ∀ p ∈ pieces, Uncut sep p := by
  induction h with
  | last ht => exact List.forall_mem_singleton.2 ht
  | cons ha _ _ _ ih => exact List.forall_mem_cons.2 ⟨ha, ih⟩

/-- A piece before another one ends at the top level. -/
theorem CutsInto.atTop {sep t : Text} {pieces : List Text} (h : CutsInto sep t pieces) :
    pieces.Pairwise fun p _ => AtTop p := by
  induction h with
  | last _ => exact List.pairwise_singleton _ _
  | cons _ htop _ _ ih => exact List.pairwise_cons.2 ⟨fun _ _ => htop, ih⟩

theorem isArgumentList_arguments (t : Text) : IsArgumentList (arguments t) := by
  have hpieces := cutsInto_topLevelPieces [','] t
  have htrim {a : Text} (ha : a ∈ arguments t) :
      a ≠ [] ∧ ∃ p ∈ topLevelPieces [','] t, trim p = a := by
    obtain ⟨ha, hne⟩ := List.mem_filter.1 ha
    exact ⟨by simpa using hne, List.mem_map.1 ha⟩
  refine ⟨fun a ha => ?_, fun a ha => ?_, ?_⟩
  · obtain ⟨hne, p, -, rfl⟩ := htrim ha
    exact .of_trim_ne_nil hne
  · obtain ⟨-, p, hp, rfl⟩ := htrim ha
    exact (hpieces.uncut p hp).trim
  · have hmap : ((topLevelPieces [','] t).map trim).Pairwise fun a _ => AtTop a :=
      List.pairwise_map.2 (hpieces.atTop.imp AtTop.trim)
    exact hmap.filter _

namespace IsArgumentList

theorem sublist {args ps : List Text} (h : IsArgumentList args) (hsub : ps.Sublist args) :
    IsArgumentList ps where
  solid a ha := h.solid a (hsub.subset ha)
  uncut a ha := h.uncut a (hsub.subset ha)
  atTop := h.atTop.sublist hsub

/-- **What is joined by commas is cut at these commas**, with blanks before the first text. -/
theorem arguments_commaList {args : List Text} (h : IsArgumentList args) {gap : Text}
    (hgap : ∀ c ∈ gap, isBlank c = true) : arguments (gap ++ commaList args) = args := by
  have hone {a : Text} (ha : Uncut [','] a) {gap : Text} (hgap : ∀ c ∈ gap, isBlank c = true) :
      Uncut [','] (gap ++ a) := (Uncut.of_isBlank hgap).append (.of_isBlank hgap) ha
  have htrim {a : Text} (ha : Solid a) {gap : Text} (hgap : ∀ c ∈ gap, isBlank c = true) :
      trim (gap ++ a) = a := by
    simpa using ha.trim_eq hgap (List.forall_mem_nil _)
  have hne {a : Text} (ha : Solid a) : a ≠ [] := by
    obtain ⟨c, s, rfl, -⟩ := ha.starts
    exact List.cons_ne_nil c s
  induction args generalizing gap with
  | nil =>
    have hnil : commaList [] = [] := rfl
    rw [hnil, List.append_nil, arguments, splitTopLevel,
      topLevelPieces_of_uncut (.of_isBlank hgap), List.map_singleton, trim_eq_nil hgap]
    rfl
  | cons a args ih =>
    have ha := h.solid a List.mem_cons_self
    have huncut := hone (h.uncut a List.mem_cons_self) hgap
    cases args with
    | nil =>
      have hsingle : commaList [a] = a := join_singleton _ a
      rw [hsingle, arguments, splitTopLevel, topLevelPieces_of_uncut huncut, List.map_singleton,
        htrim ha hgap, List.filter_singleton]
      simp [hne ha]
    | cons b args =>
      have htop : AtTop (gap ++ a) :=
        ((AtTop.of_isBlank hgap).append_iff a).2
          (List.rel_of_pairwise_cons h.atTop List.mem_cons_self)
      have hspace : ∀ c ∈ [' '], isBlank c = true := by decide
      have hrest := ih (h.sublist (List.sublist_cons_self a _)) hspace
      have hcomma : Separates [','] ',' := ⟨rfl, by decide, by decide⟩
      rw [commaList_cons_cons, ← List.append_assoc, arguments, splitTopLevel,
        topLevelPieces_append huncut htop hcomma, List.map_cons, htrim ha hgap,
        List.filter_cons_of_pos (by simpa using hne ha)]
      exact congrArg (a :: ·) hrest

end IsArgumentList

/-- **Arguments of a text read back when they are joined again**, also when some of them are left
out. -/
theorem arguments_commaList_of_sublist {t : Text} {ps : List Text} (h : ps.Sublist (arguments t)) :
    arguments (commaList ps) = ps :=
  ((isArgumentList_arguments t).sublist h).arguments_commaList (List.forall_mem_nil _)

end CodeIndex.Text
