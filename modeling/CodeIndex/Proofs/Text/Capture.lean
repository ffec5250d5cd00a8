import Mathlib.Data.List.Infix
import Mathlib.Data.List.Induction
import CodeIndex.Text.Bracket

/-!
# The match of a bracket

A capture reads from an opening bracket to the closing one that matches it. `UpToMatch` says which
part of a text that is, by counts alone: the brackets of the part balance, and those of every
shorter part do not. There is at most one such part (`UpToMatch.unique`), and none exactly when the
first bracket is open all along. So a capture is determined by the text (`isCapture_iff`), whatever
the two brackets are.

The argument is a crossing one: one more character changes the number of open brackets by at most
one, so that a text that closes the bracket before it has a first place where it does
(`exists_closing_or_opened`).
-/

namespace CodeIndex.Text

/-- How many more brackets of one kind a text opens than it closes. -/
def pairDepth (opening closing : Char) (t : Text) : Int :=
  (t.count opening : Int) - t.count closing

variable {opening closing : Char}

@[simp] theorem pairDepth_nil : pairDepth opening closing [] = 0 := rfl

theorem pairDepth_append (s t : Text) : pairDepth opening closing (s ++ t) =
    pairDepth opening closing s + pairDepth opening closing t := by
  simp only [pairDepth, List.count_append]
  omega

theorem pairDepth_pos_iff {t : Text} :
    0 < pairDepth opening closing t ↔ t.count closing < t.count opening := by
  rw [pairDepth]
  omega

theorem pairDepth_eq_zero_iff {t : Text} :
    pairDepth opening closing t = 0 ↔ t.count opening = t.count closing := by
  rw [pairDepth]
  omega

/-- The brackets of a text match each other. -/
structure BracketsNested (opening closing : Char) (t : Text) : Prop where
  closed : pairDepth opening closing t = 0
  opened : ∀ u, u <+: t → 0 ≤ pairDepth opening closing u

/-- `p` is the part of the text `t` that ends with the bracket matching its first one: it opens as
many brackets as it closes, and every shorter part opens more. -/
structure UpToMatch (opening closing : Char) (t p : Text) : Prop where
  starts : p <+: t
  ends : p.getLast? = some closing
  balanced : p.count opening = p.count closing
  opened : ∀ q, q <+: p → q ≠ [] → q ≠ p → q.count closing < q.count opening

/-- **There is at most one part up to the match.** -/
theorem UpToMatch.unique {t p q : Text} (hp : UpToMatch opening closing t p)
    (hq : UpToMatch opening closing t q) : p = q := by
  -- a part that is shorter than the other opens too many brackets
  have hshorter {p q : Text} (hp : UpToMatch opening closing t p)
      (hq : UpToMatch opening closing t q) (hle : p <+: q) : p = q := by
    by_contra hne
    have hnil : p ≠ [] := by
      rintro rfl
      exact absurd hp.ends (by simp)
    have hmore := hq.opened p hle hnil hne
    have hbalanced := hp.balanced
    omega
  rcases List.prefix_or_prefix_of_prefix hp.starts hq.starts with hle | hle
  · exact hshorter hp hq hle
  · exact (hshorter hq hp hle).symm

/-- A text is captured up to the match of its first bracket, and whole if there is no match. -/
structure IsCapture (opening closing : Char) (t captured : Text) : Prop where
  matched : ∀ p, UpToMatch opening closing t p → captured = p
  unmatched : (∀ p, ¬ UpToMatch opening closing t p) → captured = t

section Different

variable (hne : opening ≠ closing)
include hne

theorem pairDepth_cons (c : Char) (t : Text) : pairDepth opening closing (c :: t) =
    (if c = opening then 1 else if c = closing then -1 else 0) + pairDepth opening closing t := by
  simp only [pairDepth, List.count_cons, beq_iff_eq]
  split
  · next h =>
    subst h
    rw [if_neg hne]
    omega
  · split
    · omega
    · omega

theorem pairDepth_opening (t : Text) :
    pairDepth opening closing (opening :: t) = 1 + pairDepth opening closing t := by
  rw [pairDepth_cons hne, if_pos rfl]

theorem pairDepth_closing : pairDepth opening closing [closing] = -1 := by
  rw [pairDepth_cons hne, if_neg hne.symm, if_pos rfl, pairDepth_nil]
  rfl

/-! ## The crossing -/

/-- **A bracket before the text is closed in it, behind nested ones, or it is open all along.** -/
theorem exists_closing_or_opened (t : Text) :
    (∃ inside rest, t = inside ++ closing :: rest ∧ BracketsNested opening closing inside) ∨
      ∀ u, u <+: t → 0 ≤ pairDepth opening closing u := by
  induction t using List.reverseRecOn with
  | nil =>
    right
    intro u hu
    rw [List.prefix_nil.1 hu]
    exact Int.le_refl 0
  | append_singleton t c ih =>
    rcases ih with ⟨inside, rest, rfl, hnested⟩ | hopened
    · exact .inl ⟨inside, rest ++ [c], by simp, hnested⟩
    · by_cases hmatch : c = closing ∧ pairDepth opening closing t = 0
      · obtain ⟨rfl, hclosed⟩ := hmatch
        exact .inl ⟨t, [], rfl, hclosed, hopened⟩
      · -- one more character closes at most one of the brackets that are open
        right
        intro u hu
        rcases List.prefix_concat_iff.1 hu with rfl | hu
        · have hall := hopened t (List.prefix_refl t)
          rw [pairDepth_append, pairDepth_cons hne, pairDepth_nil]
          split
          · omega
          · split
            · next hc =>
              have hopen : pairDepth opening closing t ≠ 0 := fun hclosed => hmatch ⟨hc, hclosed⟩
              omega
            · omega
        · exact hopened u hu

/-! ## Captures -/

/-- A capture passes over a character that leaves a bracket open. -/
theorem captureFrom_cons_of_opened {c : Char} {depth : Int}
    (h : 1 ≤ depth + pairDepth opening closing [c]) (seen rest : Text) :
    captureFrom opening closing depth seen (c :: rest) =
      captureFrom opening closing (depth + pairDepth opening closing [c]) (c :: seen) rest := by
  rw [pairDepth_cons hne, pairDepth_nil, Int.add_zero] at h ⊢
  rw [captureFrom]
  split
  · rfl
  · next ho =>
    split
    · next hc =>
      rw [if_neg ho, if_pos hc] at h
      rw [if_neg (by omega)]
      rfl
    · rw [Int.add_zero]

/-- A capture goes on behind a text that leaves a bracket open all along. -/
theorem captureFrom_append_of_opened {t : Text} {depth : Int}
    (h : ∀ u, u <+: t → 1 ≤ depth + pairDepth opening closing u) (seen rest : Text) :
    captureFrom opening closing depth seen (t ++ rest) =
      captureFrom opening closing (depth + pairDepth opening closing t) (t.reverse ++ seen)
        rest := by
  induction t generalizing depth seen with
  | nil => simp
  | cons c t ih =>
    have hcons (u : Text) : pairDepth opening closing (c :: u) =
        pairDepth opening closing [c] + pairDepth opening closing u := pairDepth_append [c] u
    have hfirst : 1 ≤ depth + pairDepth opening closing [c] := h [c] (List.prefix_append [c] t)
    have htail (u : Text) (hu : u <+: t) :
        1 ≤ depth + pairDepth opening closing [c] + pairDepth opening closing u := by
      have hopen := h (c :: u) (List.cons_prefix_cons.2 ⟨rfl, hu⟩)
      rw [hcons] at hopen
      omega
    rw [List.cons_append, captureFrom_cons_of_opened hne hfirst, ih htail, hcons t,
      List.reverse_cons, List.append_assoc, List.singleton_append, Int.add_assoc]

/-- The brackets around a text with nested ones match. -/
theorem captureBalanced_nested {inside : Text} (h : BracketsNested opening closing inside)
    (rest : Text) : captureBalanced opening closing (opening :: (inside ++ closing :: rest)) =
      opening :: (inside ++ [closing]) := by
  have hopen (u : Text) (hu : u <+: inside) : 1 ≤ 0 + 1 + pairDepth opening closing u := by
    have := h.opened u hu
    omega
  rw [captureBalanced, captureFrom, if_pos rfl, captureFrom_append_of_opened hne hopen, h.closed,
    captureFrom, if_neg hne.symm, if_pos rfl, if_pos (by omega)]
  simp

/-- Without a match, all of the text is captured. -/
theorem captureBalanced_of_opened {t : Text}
    (h : ∀ u, u <+: t → 0 ≤ pairDepth opening closing u) :
    captureBalanced opening closing (opening :: t) = opening :: t := by
  have hopen (u : Text) (hu : u <+: t) : 1 ≤ 0 + 1 + pairDepth opening closing u := by
    have := h u hu
    omega
  have hcapture := captureFrom_append_of_opened hne hopen [opening] []
  rw [List.append_nil] at hcapture
  rw [captureBalanced, captureFrom, if_pos rfl, hcapture, captureFrom]
  simp

/-- A bracket, nested ones and the closing bracket are the part up to the match. -/
theorem upToMatch_nested {inside : Text} (h : BracketsNested opening closing inside) (rest : Text) :
    UpToMatch opening closing (opening :: (inside ++ closing :: rest))
      (opening :: (inside ++ [closing])) := by
  refine ⟨⟨rest, by simp⟩, ?_, ?_, fun q hq hnil hshorter => ?_⟩
  · rw [← List.cons_append, List.getLast?_concat]
  · rw [← pairDepth_eq_zero_iff, pairDepth_opening hne, pairDepth_append, h.closed,
      pairDepth_closing hne]
    rfl
  · rcases List.prefix_cons_iff.1 hq with rfl | ⟨u, rfl, hu⟩
    · exact absurd rfl hnil
    · rcases List.prefix_concat_iff.1 hu with rfl | hu
      · exact absurd rfl hshorter
      · have hopen := h.opened u hu
        rw [← pairDepth_pos_iff, pairDepth_opening hne]
        omega

/-- A text whose first bracket is open all along has no part up to a match. -/
theorem not_upToMatch_of_opened {t : Text}
    (h : ∀ u, u <+: t → 0 ≤ pairDepth opening closing u) (p : Text) :
    ¬ UpToMatch opening closing (opening :: t) p := by
  intro hp
  rcases List.prefix_cons_iff.1 hp.starts with rfl | ⟨u, rfl, hu⟩
  · exact absurd hp.ends (by simp)
  · have hclosed := pairDepth_eq_zero_iff.2 hp.balanced
    have hopen := h u hu
    rw [pairDepth_opening hne] at hclosed
    omega

/-- **A capture is the part up to the match, or the whole text if there is none.** -/
theorem isCapture_captureBalanced (t : Text) :
    IsCapture opening closing (opening :: t) (captureBalanced opening closing (opening :: t)) := by
  rcases exists_closing_or_opened hne t with ⟨inside, rest, rfl, hnested⟩ | hopened
  · have hmatch := upToMatch_nested hne hnested rest
    rw [captureBalanced_nested hne hnested]
    exact ⟨fun p hp => hmatch.unique hp, fun hnone => absurd hmatch (hnone _)⟩
  · rw [captureBalanced_of_opened hne hopened]
    exact ⟨fun p hp => absurd hp (not_upToMatch_of_opened hne hopened p), fun _ => rfl⟩

/-- **The counts determine what is captured.** -/
theorem isCapture_iff {t captured : Text} :
    IsCapture opening closing (opening :: t) captured ↔
      captured = captureBalanced opening closing (opening :: t) := by
  have hcapture := isCapture_captureBalanced hne t
  refine ⟨fun h => ?_, fun h => h ▸ hcapture⟩
  by_cases hmatch : ∃ p, UpToMatch opening closing (opening :: t) p
  · obtain ⟨p, hp⟩ := hmatch
    rw [h.matched p hp, hcapture.matched p hp]
  · have hnone : ∀ p, ¬ UpToMatch opening closing (opening :: t) p := not_exists.1 hmatch
    rw [h.unmatched hnone, hcapture.unmatched hnone]

/-- A text that opens no more brackets than it closes is captured up to a match. -/
theorem upToMatch_captureBalanced {t : Text}
    (h : pairDepth opening closing (opening :: t) ≤ 0) :
    UpToMatch opening closing (opening :: t) (captureBalanced opening closing (opening :: t)) := by
  rcases exists_closing_or_opened hne t with ⟨inside, rest, rfl, hnested⟩ | hopened
  · rw [captureBalanced_nested hne hnested]
    exact upToMatch_nested hne hnested rest
  · have hopen := hopened t (List.prefix_refl t)
    rw [pairDepth_opening hne] at h
    omega

end Different

end CodeIndex.Text
