import Mathlib.Data.List.Infix
import CodeIndex.Text.Basic

/-!
# Literals and occurrences

What the scanners of `CodeIndex.Text.Basic` find, in terms of concatenation: `after?` recognises
exactly the texts that start with a literal (`after?_eq_some_iff`), `cut?` cuts around an occurrence
(`eq_of_cut?`), and it finds one exactly when there is one (`contains_eq_true_iff`). For a single
character the cut is around its first occurrence (`cut?_char`).
-/

namespace CodeIndex.Text

/-- Whether all characters of a text have a property is decided character by character, and not by
going through all characters that there are. -/
instance (priority := high) {p : Char → Prop} [DecidablePred p] (t : Text) :
    Decidable (∀ c ∈ t, p c) := List.decidableBAll p t

/-! ## Literals -/

theorem after?_eq_some_iff {lit t rest : Text} : after? lit t = some rest ↔ t = lit ++ rest := by
  fun_induction after? lit t with
  | case1 t => simp [eq_comm]
  | case2 => simp
  | case3 lit b t ih => simp [ih]
  | case4 a lit b t h => simp [Ne.symm h]

@[simp] theorem after?_append (lit rest : Text) : after? lit (lit ++ rest) = some rest :=
  after?_eq_some_iff.2 rfl

theorem after?_eq_none_iff {lit t : Text} : after? lit t = none ↔ ¬ lit <+: t := by
  rw [Option.eq_none_iff_forall_ne_some]
  constructor
  · rintro h ⟨rest, rfl⟩
    exact h rest (after?_append lit rest)
  · intro h rest hr
    exact h ⟨rest, (after?_eq_some_iff.1 hr).symm⟩

theorem after?_cons_ne {a b : Char} (h : a ≠ b) (lit t : Text) :
    after? (a :: lit) (b :: t) = none := by
  rw [after?, if_neg h]

theorem startsWith_char {c : Char} {t : Text} : startsWith [c] t = true ↔ t.head? = some c := by
  cases t with
  | nil => simp [startsWith, after?]
  | cons b t => by_cases h : c = b <;> simp [startsWith, after?, h, eq_comm]

/-! ## Occurrences -/

theorem eq_of_cutFrom? {needle seen t a b : Text} (h : cutFrom? needle seen t = some (a, b)) :
    seen.reverse ++ t = a ++ needle ++ b := by
  fun_induction cutFrom? needle seen t with
  | case1 seen hn =>
    simp only [Option.some.injEq, Prod.mk.injEq] at h
    obtain ⟨rfl, rfl⟩ := h
    simp [hn]
  | case2 => simp at h
  | case3 seen c t rest hr =>
    simp only [Option.some.injEq, Prod.mk.injEq] at h
    obtain ⟨rfl, rfl⟩ := h
    rw [after?_eq_some_iff.1 hr, List.append_assoc]
  | case4 seen c t _ ih => rw [← ih h, List.reverse_cons, List.append_assoc, List.singleton_append]

theorem eq_of_cut? {needle t a b : Text} (h : cut? needle t = some (a, b)) :
    t = a ++ needle ++ b := by
  simpa using eq_of_cutFrom? h

theorem cutFrom?_eq_none_iff {needle seen t : Text} :
    cutFrom? needle seen t = none ↔ ¬ needle <:+: t := by
  fun_induction cutFrom? needle seen t with
  | case1 seen hn => simp [hn]
  | case2 seen hn => simpa using hn
  | case3 seen c t rest hr =>
    rw [after?_eq_some_iff] at hr
    simp only [reduceCtorEq, false_iff, not_not]
    exact hr ▸ ((List.prefix_append needle rest).isInfix)
  | case4 seen c t hr ih =>
    rw [after?_eq_none_iff] at hr
    rw [ih, List.infix_cons_iff]
    simp [hr]

theorem cut?_eq_none_iff {needle t : Text} : cut? needle t = none ↔ ¬ needle <:+: t :=
  cutFrom?_eq_none_iff

/-- **A text contains `needle` iff `needle` stands somewhere in it.** -/
theorem contains_eq_true_iff {needle t : Text} : contains needle t = true ↔ needle <:+: t := by
  rw [contains, ← Bool.not_eq_false, Option.isSome_eq_false_iff, Option.isNone_iff_eq_none,
    cut?_eq_none_iff, not_not]

theorem cutFrom?_append {needle a b : Text} (seen : Text)
    (h : ∀ s, s <:+ a → s ≠ [] → ¬ needle <+: s ++ needle ++ b) (hn : needle ≠ []) :
    cutFrom? needle seen (a ++ needle ++ b) = some (seen.reverse ++ a, b) := by
  induction a generalizing seen with
  | nil =>
    obtain ⟨n, ns, rfl⟩ := List.exists_cons_of_ne_nil hn
    have ha := after?_append (n :: ns) b
    rw [List.cons_append] at ha
    simp only [List.nil_append, List.cons_append, List.append_nil, cutFrom?, ha]
  | cons c a ih =>
    have hc : after? needle (c :: (a ++ needle ++ b)) = none :=
      after?_eq_none_iff.2 (h (c :: a) (List.suffix_refl _) (by simp))
    rw [List.cons_append, List.cons_append, cutFrom?, hc]
    rw [ih (c :: seen) fun s hs => h s (hs.trans (List.suffix_cons c a))]
    simp

/-- A text that starts `s ++ u` and is no longer than `s` starts `s` with anything behind it. -/
theorem prefix_append_congr {p s u : Text} (hp : p <+: s ++ u) (hl : p.length ≤ s.length)
    (v : Text) : p <+: s ++ v :=
  (List.prefix_of_prefix_length_le hp (List.prefix_append s u) hl).trans (List.prefix_append s v)

theorem cutFrom?_append_of_cutFrom? {needle seen t a b : Text} (hn : needle ≠ [])
    (h : cutFrom? needle seen t = some (a, b)) (u : Text) :
    ∃ a', a = seen.reverse ++ a' ∧ cutFrom? needle seen (a' ++ (needle ++ u)) = some (a, u) := by
  fun_induction cutFrom? needle seen t with
  | case1 seen hs => exact absurd hs hn
  | case2 seen hs => exact absurd h (by simp)
  | case3 seen c t rest hr =>
    obtain ⟨rfl, rfl⟩ := Prod.mk.inj (Option.some.inj h)
    refine ⟨[], (List.append_nil _).symm, ?_⟩
    simpa using @cutFrom?_append needle [] u seen (by simp) hn
  | case4 seen c t hr ih =>
    obtain ⟨a', rfl, ha'⟩ := ih h
    refine ⟨c :: a', by simp, ?_⟩
    have ht : c :: t = (c :: a' ++ needle) ++ b := by simpa using eq_of_cutFrom? h
    -- an occurrence at this character would lie in the part that both texts have
    have hc : after? needle (c :: (a' ++ (needle ++ u))) = none := by
      rw [after?_eq_none_iff] at hr ⊢
      intro hp
      refine hr (ht ▸ prefix_append_congr (u := u) (by simpa using hp) ?_ b)
      rw [List.length_append]
      omega
    rw [List.cons_append, cutFrom?, hc]
    exact ha'

theorem cutFrom?_first {needle seen t a b : Text} (h : cutFrom? needle seen t = some (a, b)) :
    ∀ u, u ++ needle <+: t → a.length ≤ seen.length + u.length := by
  fun_induction cutFrom? needle seen t with
  | case1 seen =>
    obtain ⟨rfl, rfl⟩ := Prod.mk.inj (Option.some.inj h)
    simp
  | case2 => exact absurd h (by simp)
  | case3 seen c t rest =>
    obtain ⟨rfl, rfl⟩ := Prod.mk.inj (Option.some.inj h)
    simp
  | case4 seen c t hr ih =>
    rw [after?_eq_none_iff] at hr
    intro u hu
    cases u with
    | nil => exact absurd hu hr
    | cons d u =>
      have hle := ih h u (List.cons_prefix_cons.1 hu).2
      rw [List.length_cons] at hle ⊢
      omega

/-- **A text is cut around the first occurrence.** -/
theorem cut?_eq_some_iff {needle t a b : Text} :
    cut? needle t = some (a, b) ↔
      t = a ++ (needle ++ b) ∧ ∀ u, u ++ needle <+: t → a.length ≤ u.length := by
  have hfirst {a b : Text} (h : cut? needle t = some (a, b)) (u : Text) (hu : u ++ needle <+: t) :
      a.length ≤ u.length := by
    simpa using cutFrom?_first h u hu
  constructor
  · intro h
    exact ⟨by rw [← List.append_assoc]; exact eq_of_cut? h, hfirst h⟩
  · rintro ⟨rfl, hleast⟩
    obtain ⟨⟨a', b'⟩, hcut⟩ : ∃ cut, cut? needle (a ++ (needle ++ b)) = some cut := by
      refine Option.isSome_iff_exists.1 (contains_eq_true_iff.2 ?_)
      exact ⟨a, b, List.append_assoc a needle b⟩
    have heq := eq_of_cut? hcut
    rw [List.append_assoc] at heq
    have hle := hfirst hcut a ⟨b, by simp⟩
    have hge := hleast a' ⟨b', by rw [heq]; simp⟩
    obtain ⟨rfl, hrest⟩ := List.append_inj heq (by omega)
    rw [hcut, List.append_cancel_left hrest]

/-- **The first occurrence of a literal does not depend on what follows it.** -/
theorem cut?_append_of_cut? {needle t a b : Text} (hn : needle ≠ [])
    (h : cut? needle t = some (a, b)) (u : Text) :
    cut? needle (a ++ (needle ++ u)) = some (a, u) := by
  obtain ⟨a', rfl, ha'⟩ := cutFrom?_append_of_cutFrom? hn h u
  exact ha'

/-- The first occurrence of a literal that starts with a character foreign to the text before it. -/
theorem cut?_append_cons {c : Char} {lit a : Text} (h : c ∉ a) (b : Text) :
    cut? (c :: lit) (a ++ (c :: lit) ++ b) = some (a, b) := by
  refine cutFrom?_append [] (fun s hs hne hp => ?_) (by simp)
  obtain ⟨x, s, rfl⟩ := List.exists_cons_of_ne_nil hne
  obtain rfl : c = x := by
    obtain ⟨u, hu⟩ := hp
    simp only [List.cons_append, List.cons.injEq] at hu
    exact hu.1
  exact h (hs.subset List.mem_cons_self)

theorem cut?_char {c : Char} {a : Text} (h : c ∉ a) (b : Text) :
    cut? [c] (a ++ c :: b) = some (a, b) := by
  simpa using @cut?_append_cons c [] a h b

theorem cut?_char_eq_some_iff {c : Char} {t a b : Text} :
    cut? [c] t = some (a, b) ↔ t = a ++ c :: b ∧ c ∉ a := by
  constructor
  · intro h
    obtain ⟨rfl, hfirst⟩ := cut?_eq_some_iff.1 h
    refine ⟨rfl, fun hmem => ?_⟩
    obtain ⟨u, v, rfl⟩ := List.append_of_mem hmem
    have hle := hfirst u ⟨v ++ c :: b, by simp⟩
    rw [List.length_append, List.length_cons] at hle
    omega
  · rintro ⟨rfl, ha⟩
    exact cut?_char ha b

theorem cut?_char_eq_none {c : Char} {t : Text} (h : c ∉ t) : cut? [c] t = none := by
  rw [cut?_eq_none_iff, List.singleton_infix_iff]
  exact h

theorem before_char_of_not_mem {c : Char} {t : Text} (h : c ∉ t) : before [c] t = t := by
  rw [before, cut?_char_eq_none h]
  rfl

/-! ## Occurrences across a foreign character -/

/-- What starts with a character occurs behind a text without that character. -/
theorem infix_of_infix_append {d : Char} {ds s t : Text} (hd : d ∉ s) (h : d :: ds <:+: s ++ t) :
    d :: ds <:+: t := by
  induction s with
  | nil => exact h
  | cons c s ih =>
    rcases List.infix_cons_iff.1 h with h | h
    · exact absurd (List.cons_prefix_cons.1 h).1 fun e => hd (by simp [e])
    · exact ih (fun hm => hd (by simp [hm])) h

theorem prefix_of_prefix_append_cons {needle a b : Text} {c : Char} (hc : c ∉ needle)
    (h : needle <+: a ++ c :: b) : needle <+: a := by
  induction a generalizing needle with
  | nil =>
    cases needle with
    | nil => exact List.prefix_refl []
    | cons x needle =>
      obtain ⟨rfl, -⟩ := List.cons_prefix_cons.1 h
      simp at hc
  | cons y a ih =>
    cases needle with
    | nil => exact List.nil_prefix
    | cons x needle =>
      obtain ⟨rfl, ht⟩ := List.cons_prefix_cons.1 h
      exact List.cons_prefix_cons.2 ⟨rfl, ih (fun hm => hc (List.mem_cons_of_mem x hm)) ht⟩

/-- What does not contain a character occurs before or after each occurrence of that character. -/
theorem infix_append_cons_iff {needle a b : Text} {c : Char} (hc : c ∉ needle) :
    needle <:+: a ++ c :: b ↔ needle <:+: a ∨ needle <:+: b := by
  constructor
  · intro h
    induction a with
    | nil =>
      rw [List.nil_append, List.infix_cons_iff] at h
      rcases h with h | h
      · exact .inl (prefix_of_prefix_append_cons (a := []) hc h).isInfix
      · exact .inr h
    | cons x a ih =>
      rw [List.cons_append, List.infix_cons_iff] at h
      rcases h with h | h
      · exact .inl (prefix_of_prefix_append_cons (a := x :: a) hc h).isInfix
      · exact (ih h).imp (fun h => h.trans (List.suffix_cons x a).isInfix) id
  · rintro (h | h)
    · exact h.trans (List.prefix_append a _).isInfix
    · exact h.trans (List.suffix_append_of_suffix (List.suffix_cons c b)).isInfix

/-! ## Joined parts -/

theorem join_cons_cons (sep a b : Text) (parts : List Text) :
    join sep (a :: b :: parts) = a ++ (sep ++ join sep (b :: parts)) := by
  simp [join, List.intercalate]

@[simp] theorem join_singleton (sep a : Text) : join sep [a] = a := by
  simp [join, List.intercalate]

theorem join_append_singleton {sep : Text} {parts : List Text} (h : parts ≠ []) (a : Text) :
    join sep (parts ++ [a]) = join sep parts ++ (sep ++ a) := by
  induction parts with
  | nil => exact absurd rfl h
  | cons b parts ih =>
    cases parts with
    | nil => simp [join_cons_cons]
    | cons c parts =>
      have := ih (by simp)
      rw [List.cons_append] at this
      rw [List.cons_append, List.cons_append, join_cons_cons, this, join_cons_cons]
      simp

/-- Parts before other parts, each with the separator behind it. -/
theorem join_append {sep : Text} {after : List Text} (h : after ≠ []) (parts : List Text) :
    join sep (parts ++ after) = parts.flatMap (· ++ sep) ++ join sep after := by
  obtain ⟨b, after, rfl⟩ := List.exists_cons_of_ne_nil h
  induction parts with
  | nil => rfl
  | cons a parts ih =>
    have hcons : ∃ c rest, parts ++ b :: after = c :: rest := by cases parts <;> simp
    obtain ⟨c, rest, hrest⟩ := hcons
    rw [List.cons_append, hrest, join_cons_cons, ← hrest, ih]
    simp

end CodeIndex.Text
