import CodeIndex.Proofs.Text.Blank
import CodeIndex.Proofs.Text.Capture
import CodeIndex.Proofs.Text.TripleQuote

/-!
# Properly nested brackets

`Nested top t` says that the brackets of `t` are properly nested and that its characters outside of
all brackets satisfy `top`. Every bracket counter of `CodeIndex.Text.Bracket` passes over such a
text with the depth it had before, but they do not agree on what else they pass over.

* Balancers and captures count parentheses only, and those in quotes too. The depth of a balancer is
  the number of parentheses that a text leaves open (`parenDepth`, `Balancer.depth_feed`), and a
  capture ends behind a text in which this number never gets negative and is zero at the end
  (`ParensNested`, `captureCall_parensNested`).
* The search for separators counts all brackets, outside of quotes. `Closed top t` says that these
  are nested and that every quote is closed; no separator is found in such a text
  (`piecesFrom_closed`), so arguments are cut at the commas between them and nowhere else
  (`arguments_append_comma`, `arguments_commaList`).
-/

namespace CodeIndex.Text

/-- The bracket that closes an opening one. -/
def closingBracket? (c : Char) : Option Char :=
  if c = '(' then some ')' else if c = '[' then some ']' else if c =
    '\x7b' then some '\x7d' else none

/-- The character is a bracket. -/
def isBracket (c : Char) : Bool :=
  c = '(' || c = ')' || c = '[' || c = ']' || c = '\x7b' || c = '\x7d'

/-- The brackets are properly nested, and all characters outside of them satisfy `top`. -/
inductive Nested : (top : Char → Prop) → Text → Prop
  | nil (top : Char → Prop) : Nested top []
  | char {top : Char → Prop} {c : Char} {t : Text} (hc : isBracket c = false) (h : top c)
      (ht : Nested top t) : Nested top (c :: t)
  | group {top : Char → Prop} {o c : Char} {s t : Text} (ho : closingBracket? o = some c)
      (hs : Nested (fun _ => True) s) (ht : Nested top t) : Nested top (o :: (s ++ c :: t))

theorem Nested.mono {p q : Char → Prop} (h : ∀ c, p c → q c) {t : Text} (ht : Nested p t) :
    Nested q t := by
  induction ht with
  | nil => exact .nil q
  | char hc hp _ ih => exact .char hc (h _ hp) (ih h)
  | group ho hs _ _ ih => exact .group ho hs (ih h)

theorem Nested.of_forall {t : Text} (h : ∀ c ∈ t, isBracket c = false) :
    Nested (fun _ => True) t := by
  induction t with
  | nil => exact .nil _
  | cons c t ih => exact .char (h c (by simp)) trivial (ih fun d hd => h d (by simp [hd]))

theorem Nested.append {p : Char → Prop} {s t : Text} (hs : Nested p s) (ht : Nested p t) :
    Nested p (s ++ t) := by
  induction hs with
  | nil => exact ht
  | char hc hp _ ih => exact .char hc hp (ih ht)
  | group ho hi _ _ ih =>
    rw [List.cons_append, List.append_assoc, List.cons_append]
    exact .group ho hi (ih ht)

theorem closingBracket?_cases {o c : Char} (h : closingBracket? o = some c) :
    o = '(' ∧ c = ')' ∨ o = '[' ∧ c = ']' ∨ o = '\x7b' ∧ c = '\x7d' := by
  unfold closingBracket? at h
  split_ifs at h with h1 h2 h3
  · exact .inl ⟨h1, (Option.some.inj h).symm⟩
  · exact .inr (.inl ⟨h2, (Option.some.inj h).symm⟩)
  · exact .inr (.inr ⟨h3, (Option.some.inj h).symm⟩)

/-! ## Counting parentheses -/

/-- How many more parentheses a text opens than it closes. -/
def parenDepth (t : Text) : Int := (t.count '(' : Int) - t.count ')'

@[simp] theorem parenDepth_nil : parenDepth [] = 0 := rfl

theorem parenDepth_append (s t : Text) : parenDepth (s ++ t) = parenDepth s + parenDepth t :=
  pairDepth_append s t

theorem parenDepth_cons (c : Char) (t : Text) :
    parenDepth (c :: t) = (if c = '(' then 1 else if c = ')' then -1 else 0) + parenDepth t :=
  pairDepth_cons (by decide) c t

namespace Balancer

/-- A balancer counts the parentheses of what it reads. -/
theorem depth_foldl_count (b : Balancer) (t : Text) :
    (t.foldl count b).depth = b.depth + parenDepth t := by
  induction t generalizing b with
  | nil => simp
  | cons c t ih =>
    rw [List.foldl_cons, ih, parenDepth_cons, count]
    split
    · dsimp only
      omega
    · split
      · dsimp only
        omega
      · omega

theorem seenOpen_foldl_count {b : Balancer} (h : b.seenOpen = true) (t : Text) :
    (t.foldl count b).seenOpen = true := by
  induction t generalizing b with
  | nil => exact h
  | cons c t ih =>
    refine ih ?_
    unfold count
    split
    · rfl
    · split <;> exact h

theorem depth_feed (b : Balancer) (chunk : Text) :
    (b.feed chunk).depth = b.depth + parenDepth chunk :=
  depth_foldl_count _ chunk

theorem depth_feed_empty (chunk : Text) :
    (({} : Balancer).feed chunk).depth = parenDepth chunk := by
  rw [depth_feed]
  exact Int.zero_add _

theorem seenOpen_feed {b : Balancer} (h : b.seenOpen = true) (chunk : Text) :
    (b.feed chunk).seenOpen = true :=
  seenOpen_foldl_count (b := { b with chunks := trim chunk :: b.chunks }) h chunk

theorem seenOpen_feed_cons (b : Balancer) (t : Text) : (b.feed ('(' :: t)).seenOpen = true := by
  rw [feed, List.foldl_cons]
  exact seenOpen_foldl_count rfl t

/-- A balancer keeps the trimmed chunks. -/
theorem chunks_feed (b : Balancer) (chunk : Text) :
    (b.feed chunk).chunks = trim chunk :: b.chunks := by
  have hcount (b : Balancer) (t : Text) : (t.foldl count b).chunks = b.chunks := by
    induction t generalizing b with
    | nil => rfl
    | cons c t ih =>
      rw [List.foldl_cons, ih, count]
      split
      · rfl
      · split <;> rfl
  exact hcount _ chunk

theorem chunks_foldl_feed (b : Balancer) (lines : List Text) :
    (lines.foldl feed b).chunks.reverse = b.chunks.reverse ++ lines.map trim := by
  induction lines generalizing b with
  | nil => simp
  | cons line lines ih =>
    rw [List.foldl_cons, ih, chunks_feed, List.reverse_cons, List.append_assoc, List.map_cons,
      List.singleton_append]

/-- Once a parenthesis was opened, a balancer is done when none is open. -/
theorem isDone_eq_false_iff {b : Balancer} (h : b.seenOpen = true) :
    b.isDone = false ↔ 0 < b.depth := by
  simp [isDone, h]

end Balancer

/-! ## Parentheses, also those in quotes -/

/-- The parentheses of a text are nested, wherever they stand. -/
structure ParensNested (t : Text) : Prop where
  closed : parenDepth t = 0
  opened : ∀ u, u <+: t → 0 ≤ parenDepth u

instance (t : Text) : Decidable (ParensNested t) :=
  decidable_of_iff (parenDepth t = 0 ∧ ∀ u ∈ t.inits, 0 ≤ parenDepth u)
    ⟨fun h => ⟨h.1, fun u hu => h.2 u ((List.mem_inits u t).2 hu)⟩,
      fun h => ⟨h.closed, fun u hu => h.opened u ((List.mem_inits u t).1 hu)⟩⟩

theorem parenDepth_of_not_mem {t : Text} (ho : '(' ∉ t) (hc : ')' ∉ t) : parenDepth t = 0 := by
  rw [parenDepth, List.count_eq_zero.2 ho, List.count_eq_zero.2 hc]
  rfl

namespace ParensNested

theorem of_not_mem {t : Text} (ho : '(' ∉ t) (hc : ')' ∉ t) : ParensNested t := by
  refine ⟨parenDepth_of_not_mem ho hc, fun u hu => ?_⟩
  have hdepth := parenDepth_of_not_mem (fun h => ho (hu.subset h)) (fun h => hc (hu.subset h))
  omega

theorem of_isBlank {t : Text} (h : ∀ c ∈ t, isBlank c = true) : ParensNested t := by
  refine of_not_mem (fun hc => ?_) (fun hc => ?_)
  · exact absurd (h _ hc) (by decide)
  · exact absurd (h _ hc) (by decide)

theorem append {s t : Text} (hs : ParensNested s) (ht : ParensNested t) :
    ParensNested (s ++ t) := by
  refine ⟨?_, fun u hu => ?_⟩
  · rw [parenDepth_append, hs.closed, ht.closed]
    rfl
  · rcases List.prefix_or_prefix_of_prefix hu (List.prefix_append s t) with hu | ⟨v, rfl⟩
    · exact hs.opened u hu
    · rw [parenDepth_append, hs.closed, Int.zero_add]
      exact ht.opened v ((List.prefix_append_right_inj s).1 hu)

theorem parenthesised {t : Text} (ht : ParensNested t) : ParensNested ('(' :: (t ++ [')'])) := by
  have hopen (u : Text) : parenDepth ('(' :: u) = 1 + parenDepth u := by
    rw [parenDepth_cons, if_pos rfl]
  refine ⟨?_, fun u hu => ?_⟩
  · rw [hopen, parenDepth_append, ht.closed]
    rfl
  · rcases List.prefix_cons_iff.1 hu with rfl | ⟨v, rfl, hv⟩
    · exact Int.le_refl 0
    · rw [hopen]
      rcases List.prefix_or_prefix_of_prefix hv (List.prefix_append t [')']) with hv | ⟨w, rfl⟩
      · have := ht.opened v hv
        omega
      · -- the closing parenthesis is reached or not
        have hw : -1 ≤ parenDepth w := by
          rcases List.prefix_cons_iff.1 ((List.prefix_append_right_inj t).1 hv)
            with rfl | ⟨x, rfl, hx⟩
          · decide
          · rw [List.prefix_nil.1 hx]
            decide
        rw [parenDepth_append, ht.closed]
        omega

/-- In a text with nested brackets the parentheses are nested. -/
theorem of_nested {top : Char → Prop} {t : Text} (ht : Nested top t) : ParensNested t := by
  have hchar {c : Char} (ho : c ≠ '(') (hc : c ≠ ')') {u : Text} (hu : ParensNested u) :
      ParensNested (c :: u) :=
    (of_not_mem (t := [c]) (by simpa using ho.symm) (by simpa using hc.symm)).append hu
  induction ht with
  | nil => exact of_not_mem List.not_mem_nil List.not_mem_nil
  | char hc _ _ ih =>
    simp only [isBracket, Bool.or_eq_false_iff, decide_eq_false_iff_not] at hc
    exact hchar hc.1.1.1.1.1 hc.1.1.1.1.2 ih
  | group ho _ _ ihs iht =>
    rcases closingBracket?_cases ho with ⟨rfl, rfl⟩ | ⟨rfl, rfl⟩ | ⟨rfl, rfl⟩
    · have := ihs.parenthesised.append iht
      rwa [List.cons_append, List.append_assoc] at this
    · exact hchar (by decide) (by decide) (ihs.append (hchar (by decide) (by decide) iht))
    · exact hchar (by decide) (by decide) (ihs.append (hchar (by decide) (by decide) iht))

end ParensNested

theorem parenDepth_trim (t : Text) : parenDepth (trim t) = parenDepth t := by
  obtain ⟨s, u, hs, hu, heq⟩ := exists_blanks_append_trim t
  have hdepth := congrArg parenDepth heq
  rw [parenDepth_append, parenDepth_append, (ParensNested.of_isBlank hs).closed,
    (ParensNested.of_isBlank hu).closed] at hdepth
  omega

/-- Joining lines changes the number of parentheses as little as trimming them. -/
theorem parenDepth_join_trim (lines : List Text) :
    parenDepth (join [' '] (lines.map trim)) = parenDepth lines.flatten := by
  induction lines with
  | nil => rfl
  | cons line lines ih =>
    cases lines with
    | nil => simp [parenDepth_trim]
    | cons next lines =>
      have hspace : parenDepth [' '] = 0 := rfl
      have hflatten : parenDepth (line :: next :: lines).flatten =
          parenDepth line + parenDepth (next :: lines).flatten := by
        rw [List.flatten_cons, parenDepth_append]
      rw [List.map_cons] at ih
      rw [List.map_cons, List.map_cons, join_cons_cons, parenDepth_append, parenDepth_append, ih,
        parenDepth_trim, hspace, Int.zero_add, hflatten]

/-! ## Separators, outside of quotes -/

/-- A blank is neither a bracket nor a quote. -/
theorem plain_of_isBlank {c : Char} (h : isBlank c = true) :
    isBracket c = false ∧ isQuote c = false := by
  constructor
  · by_contra hb
    simp only [isBracket, Bool.not_eq_false, Bool.or_eq_true, decide_eq_true_eq] at hb
    rcases hb with ((((rfl | rfl) | rfl) | rfl) | rfl) | rfl <;> exact absurd h (by decide)
  · by_contra hq
    simp only [isQuote, Bool.not_eq_false, Bool.or_eq_true, decide_eq_true_eq] at hq
    rcases hq with rfl | rfl <;> exact absurd h (by decide)

/-- Every quote is closed by the next same character, the brackets outside of quotes are properly
nested, and all characters outside of both satisfy `top`. -/
inductive Closed : (top : Char → Prop) → Text → Prop
  | nil (top : Char → Prop) : Closed top []
  | char {top : Char → Prop} {c : Char} {t : Text} (hc : isBracket c = false)
      (hq : isQuote c = false) (h : top c) (ht : Closed top t) : Closed top (c :: t)
  | quoted {top : Char → Prop} {q : Char} {s t : Text} (hq : isQuote q = true) (hs : q ∉ s)
      (ht : Closed top t) : Closed top (q :: (s ++ q :: t))
  | group {top : Char → Prop} {o c : Char} {s t : Text} (ho : closingBracket? o = some c)
      (hs : Closed (fun _ => True) s) (ht : Closed top t) : Closed top (o :: (s ++ c :: t))

namespace Closed

theorem append {p : Char → Prop} {s t : Text} (hs : Closed p s) (ht : Closed p t) :
    Closed p (s ++ t) := by
  induction hs with
  | nil => exact ht
  | char hc hq hp _ ih => exact .char hc hq hp (ih ht)
  | quoted hq hs _ ih =>
    rw [List.cons_append, List.append_assoc, List.cons_append]
    exact .quoted hq hs (ih ht)
  | group ho hi _ _ ih =>
    rw [List.cons_append, List.append_assoc, List.cons_append]
    exact .group ho hi (ih ht)

theorem of_forall {p : Char → Prop} {t : Text}
    (h : ∀ c ∈ t, isBracket c = false ∧ isQuote c = false ∧ p c) : Closed p t := by
  induction t with
  | nil => exact .nil p
  | cons c t ih =>
    obtain ⟨⟨hc, hq, hp⟩, ht⟩ := List.forall_mem_cons.1 h
    exact .char hc hq hp (ih ht)

theorem of_isBlank {t : Text} (h : ∀ c ∈ t, isBlank c = true) : Closed (· ≠ ',') t := by
  refine of_forall fun c hc => ?_
  obtain ⟨hb, hq⟩ := plain_of_isBlank (h c hc)
  refine ⟨hb, hq, ?_⟩
  rintro rfl
  exact absurd (h _ hc) (by decide)

/-- Without quotes, the brackets are all there is. -/
theorem of_nested {p : Char → Prop} {t : Text} (ht : Nested p t) (hq : QuoteFree t) :
    Closed p t := by
  induction ht with
  | nil => exact .nil _
  | char hc hp _ ih =>
    obtain ⟨hq₁, hq⟩ := quoteFree_cons.1 hq
    exact .char hc (by simp [isQuote, hq₁]) hp (ih hq)
  | group ho _ _ ihs iht =>
    simp only [quoteFree_cons, quoteFree_append] at hq
    obtain ⟨-, hqs, -, hqt⟩ := hq
    exact .group ho (ihs hqs) (iht hqt)

end Closed

/-- A quote ends at the next same character. -/
theorem piecesFrom_quoted {q : Char} {s : Text} (hs : q ∉ s) (sep : Text) (depth : Int)
    (piece rest : Text) :
    piecesFrom sep depth (some q) piece (s ++ q :: rest) =
      piecesFrom sep depth none (q :: (s.reverse ++ piece)) rest := by
  induction s generalizing piece with
  | nil => rw [List.nil_append, piecesFrom, if_pos rfl]; rfl
  | cons c s ih =>
    rw [List.mem_cons, not_or] at hs
    rw [List.cons_append, piecesFrom, if_neg (Ne.symm hs.1), ih hs.2, List.reverse_cons,
      List.append_assoc, List.singleton_append]

/-- **No separator is found in a closed text** that has no comma outside of brackets and quotes, or
that stands inside of some brackets. -/
theorem piecesFrom_closed {top : Char → Prop} {t : Text} (ht : Closed top t) {depth : Int}
    (hd : 0 ≤ depth) (hc : ∀ c, top c → c ≠ ',' ∨ depth ≠ 0) (piece rest : Text) :
    piecesFrom [','] depth none piece (t ++ rest) =
      piecesFrom [','] depth none (t.reverse ++ piece) rest := by
  induction ht generalizing depth piece rest with
  | nil => rfl
  | char hb hq hp _ ih =>
    simp only [isBracket, Bool.or_eq_false_iff, decide_eq_false_iff_not] at hb
    simp only [isQuote, Bool.or_eq_false_iff, decide_eq_false_iff_not] at hq
    have hcut : ¬ ([','] = [_] ∧ depth = 0) := fun ⟨h, h0⟩ =>
      (hc _ hp).elim (fun h' => h' (List.singleton_inj.1 h).symm) fun h' => h' h0
    rw [List.cons_append, piecesFrom, if_neg (by tauto), if_neg (by tauto), if_neg (by tauto),
      if_neg hcut, ih hd hc]
    simp
  | quoted hq hs _ ih =>
    simp only [isQuote, Bool.or_eq_true, decide_eq_true_eq] at hq
    rw [List.cons_append, List.append_assoc, List.cons_append, piecesFrom, if_pos hq,
      piecesFrom_quoted hs, ih hd hc]
    simp
  | group ho _ _ ihs iht =>
    have inner : ∀ c : Char, True → c ≠ ',' ∨ depth + 1 ≠ 0 := fun _ _ => .inr (by omega)
    have hopen : ∀ {o c : Char}, closingBracket? o = some c →
        (o = '(' ∨ o = '[' ∨ o = '\x7b') ∧ (c = ')' ∨ c = ']' ∨ c = '\x7d') ∧
          ¬ (o = '"' ∨ o = '\'') ∧ ¬ (c = '"' ∨ c = '\'') ∧ ¬ (c = '(' ∨ c = '[' ∨ c = '\x7b') := by
      intro o c h
      rcases closingBracket?_cases h with ⟨rfl, rfl⟩ | ⟨rfl, rfl⟩ | ⟨rfl, rfl⟩ <;> decide
    obtain ⟨ho₁, hc₁, ho₂, hc₂, hc₃⟩ := hopen ho
    simp only [List.cons_append, List.append_assoc]
    rw [piecesFrom, if_neg ho₂, if_pos ho₁, ihs (by omega) inner, piecesFrom, if_neg hc₂,
      if_neg hc₃, if_pos hc₁, show depth + 1 - 1 = depth by omega, iht hd hc]
    simp

section Arguments

variable {t : Text} (ht : Closed (· ≠ ',') t)
include ht

/-- A text without a comma at the top level is one argument, if there is anything in it. -/
theorem arguments_of_closed : arguments t = [trim t].filter (· ≠ []) := by
  have hpieces := piecesFrom_closed ht (Int.le_refl 0) (fun _ h => .inl h) [] []
  rw [List.append_nil, List.append_nil, piecesFrom, List.reverse_reverse] at hpieces
  rw [arguments, splitTopLevel, topLevelPieces, hpieces]
  rfl

/-- **Arguments are cut at the first comma at the top level.** -/
theorem arguments_append_comma (rest : Text) :
    arguments (t ++ ',' :: rest) = [trim t].filter (· ≠ []) ++ arguments rest := by
  have hpieces := piecesFrom_closed ht (Int.le_refl 0) (fun _ h => .inl h) [] (',' :: rest)
  rw [List.append_nil] at hpieces
  simp only [piecesFrom, Char.reduceEq, or_self, ↓reduceIte, and_self, List.reverse_reverse]
    at hpieces
  rw [arguments, splitTopLevel, topLevelPieces, hpieces, List.map_cons, ← List.singleton_append,
    List.filter_append]
  rfl

end Arguments

/-! ## Arguments in parentheses -/

/-- A text that can stand as one of several arguments: its commas are inside of brackets, and no
blanks surround it. -/
structure IsArgument (t : Text) : Prop where
  nested : Nested (· ≠ ',') t
  quoteFree : QuoteFree t
  trimmed : trim t = t
  nonempty : t ≠ []

/-- Arguments with a comma and a space between any two. -/
def commaList (args : List Text) : Text := join [',', ' '] args

theorem commaList_cons_cons (a b : Text) (args : List Text) :
    commaList (a :: b :: args) = a ++ ',' :: ' ' :: commaList (b :: args) := by
  rw [commaList, join_cons_cons]
  rfl

theorem forall_mem_commaList {P : Char → Prop} (hc : P ',') (hs : P ' ') {args : List Text}
    (h : ∀ a ∈ args, ∀ c ∈ a, P c) : ∀ c ∈ commaList args, P c := by
  induction args with
  | nil => simp [commaList, join]
  | cons a args ih =>
    have ha := h a (by simp)
    cases args with
    | nil => simpa [commaList] using ha
    | cons b args =>
      rw [commaList_cons_cons]
      simp only [List.forall_mem_append, List.forall_mem_cons]
      exact ⟨ha, hc, hs, ih fun d hd => h d (by simp [hd])⟩

/-- Blanks before a list of arguments do not matter. -/
theorem arguments_blanks_commaList {args : List Text} (h : ∀ a ∈ args, IsArgument a) {gap : Text}
    (hgap : ∀ c ∈ gap, isBlank c = true) : arguments (gap ++ commaList args) = args := by
  have hone {a : Text} (ha : IsArgument a) {gap : Text} (hgap : ∀ c ∈ gap, isBlank c = true) :
      Closed (· ≠ ',') (gap ++ a) ∧ [trim (gap ++ a)].filter (· ≠ []) = [a] := by
    refine ⟨(Closed.of_isBlank hgap).append (.of_nested ha.nested ha.quoteFree), ?_⟩
    rw [trim_eq, trimLeft_append hgap, ← trim_eq, ha.trimmed, List.filter_singleton]
    simp [ha.nonempty]
  induction args generalizing gap with
  | nil =>
    have hnil : commaList [] = [] := rfl
    rw [hnil, List.append_nil, arguments_of_closed (.of_isBlank hgap), trim_eq_nil hgap]
    rfl
  | cons a args ih =>
    obtain ⟨hclosed, htrim⟩ := hone (h a (by simp)) hgap
    cases args with
    | nil =>
      have hsingle : commaList [a] = a := join_singleton _ a
      rw [hsingle, arguments_of_closed hclosed, htrim]
    | cons b args =>
      have hspace : ∀ c ∈ [' '], isBlank c = true := by decide
      have hrest := ih (fun c hc => h c (by simp [hc])) hspace
      rw [List.singleton_append] at hrest
      rw [commaList_cons_cons, ← List.append_assoc, arguments_append_comma hclosed, htrim, hrest]
      rfl

/-- **Arguments are cut at the commas between them**, whatever commas they have in brackets. -/
theorem arguments_commaList {args : List Text} (h : ∀ a ∈ args, IsArgument a) :
    arguments (commaList args) = args :=
  arguments_blanks_commaList h (List.forall_mem_nil _)

theorem nested_commaList {args : List Text} (h : ∀ a ∈ args, Nested (fun _ => True) a) :
    Nested (fun _ => True) (commaList args) := by
  induction args with
  | nil => exact .nil _
  | cons a args ih =>
    have ha := h a (by simp)
    cases args with
    | nil => simpa [commaList] using ha
    | cons b args =>
      rw [commaList_cons_cons]
      have htail := ih fun c hc => h c (by simp [hc])
      exact ha.append (.char (by decide) trivial (.char (by decide) trivial htail))

/-- The parentheses around a text with nested ones match. -/
theorem captureCall_parensNested {t : Text} (ht : ParensNested t) (rest : Text) :
    captureCall ('(' :: (t ++ ')' :: rest)) = '(' :: (t ++ [')']) :=
  captureBalanced_nested (by decide) ⟨ht.closed, ht.opened⟩ rest

theorem callArguments_parenthesised (t : Text) : callArguments ('(' :: (t ++ [')'])) = t := by
  have hlast : endsWithChar ')' ('(' :: (t ++ [')'])) = true := by
    rw [endsWithChar, ← List.cons_append, List.getLast?_concat]
    rfl
  rw [callArguments, if_pos hlast, List.tail_cons, List.dropLast_concat]

end CodeIndex.Text
