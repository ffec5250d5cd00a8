import Mathlib.Data.List.Perm.Basic
import CodeIndex.Text.Basic

/-!
# Code point order

`Lt` is the lexicographic order of texts by code points, and `le` decides its reflexive closure
(`le_iff`). `sort` arranges a list in this order, and `sortedSet` is the strictly increasing list of
the texts that occur in a list (`pairwise_sortedSet`, `mem_sortedSet`). Strictly increasing lists
with the same elements are equal (`eq_of_pairwise_lt`), so a sorted set says which texts occur and
nothing else (`sortedSet_eq_iff`).
-/

namespace CodeIndex.Text

/-- A text comes before another: its code point is the smaller one where they first differ, or it is
a proper initial part of the other. -/
def Lt (s t : Text) : Prop := List.Lex (fun a b => a.toNat < b.toNat) s t

theorem Lt.irrefl (s : Text) : ¬ Lt s s := List.lex_irrefl (fun c => Nat.lt_irrefl c.toNat) s

theorem Lt.trans {s t u : Text} (h₁ : Lt s t) (h₂ : Lt t u) : Lt s u :=
  List.lex_trans (fun h₁ h₂ => Nat.lt_trans h₁ h₂) h₁ h₂

theorem Lt.asymm {s t : Text} (h : Lt s t) : ¬ Lt t s := fun h' => Lt.irrefl s (h.trans h')

/-- **`le` decides whether a text comes before another or is the same.** -/
theorem le_iff {s t : Text} : le s t = true ↔ s = t ∨ Lt s t := by
  fun_induction le s t with
  | case1 t =>
    cases t with
    | nil => simp
    | cons b t => simp [Lt]
  | case2 a s => simp [Lt]
  | case3 s b t ih =>
    have : Lt (b :: s) (b :: t) ↔ Lt s t := by simp [Lt, List.cons_lex_cons_iff]
    rw [ih, this, List.cons.injEq]
    simp
  | case4 a s b t hab =>
    have : Lt (a :: s) (b :: t) ↔ a.toNat < b.toNat := by simp [Lt, List.cons_lex_cons_iff, hab]
    rw [this, decide_eq_true_eq, List.cons.injEq]
    simp [hab]

theorem toNat_lt_or_lt {a b : Char} (h : a ≠ b) : a.toNat < b.toNat ∨ b.toNat < a.toNat := by
  rcases Nat.lt_trichotomy a.toNat b.toNat with hlt | heq | hlt
  · exact .inl hlt
  · exact absurd (Char.toNat_inj.1 heq) h
  · exact .inr hlt

theorem le_total (s t : Text) : (le s t || le t s) = true := by
  fun_induction le s t with
  | case1 t => simp
  | case2 a s => simp [le]
  | case3 s b t ih => simpa [le] using ih
  | case4 a s b t hab =>
    have := toNat_lt_or_lt hab
    simpa [le, Ne.symm hab] using this

theorem le_trans (s t u : Text) (h₁ : le s t = true) (h₂ : le t u = true) : le s u = true := by
  rw [le_iff] at h₁ h₂ ⊢
  rcases h₁ with rfl | h₁
  · exact h₂
  · rcases h₂ with rfl | h₂
    · exact .inr h₁
    · exact .inr (h₁.trans h₂)

/-! ## Sorted lists -/

theorem sort_perm (ts : List Text) : (sort ts).Perm ts := List.mergeSort_perm ts le

theorem pairwise_sort (ts : List Text) : (sort ts).Pairwise fun a b => le a b = true :=
  List.pairwise_mergeSort le_trans le_total ts

/-- Different texts in order are strictly increasing. -/
theorem pairwise_lt_of_nodup {ts : List Text} (h : ts.Pairwise fun a b => le a b = true)
    (hn : ts.Nodup) :
    ts.Pairwise Lt :=
  (List.pairwise_and_iff.2 ⟨h, hn⟩).imp fun ⟨hle, hne⟩ => (le_iff.1 hle).resolve_left hne

theorem mem_dedupSorted {a : Text} {ts : List Text} : a ∈ dedupSorted ts ↔ a ∈ ts := by
  fun_induction dedupSorted ts with
  | case1 => rfl
  | case2 => rfl
  | case3 b ts ih => simp [ih]
  | case4 b c ts h ih => simp [ih]

theorem pairwise_dedupSorted {ts : List Text} (h : ts.Pairwise fun a b => le a b = true) :
    (dedupSorted ts).Pairwise Lt := by
  fun_induction dedupSorted ts with
  | case1 => exact .nil
  | case2 a => exact List.pairwise_singleton Lt a
  | case3 b ts ih => exact ih (List.pairwise_cons.1 h).2
  | case4 a b ts hab ih =>
    obtain ⟨ha, hb⟩ := List.pairwise_cons.1 h
    refine List.pairwise_cons.2 ⟨fun c hc => ?_, ih hb⟩
    have hab' : Lt a b := (le_iff.1 (ha b (by simp))).resolve_left hab
    -- what comes after `b` is not below it
    rcases List.mem_cons.1 (mem_dedupSorted.1 hc) with rfl | hc
    · exact hab'
    · rcases le_iff.1 ((List.pairwise_cons.1 hb).1 c hc) with rfl | hbc
      · exact hab'
      · exact hab'.trans hbc

theorem mem_sortedSet {a : Text} {ts : List Text} : a ∈ sortedSet ts ↔ a ∈ ts := by
  rw [sortedSet, mem_dedupSorted, (sort_perm ts).mem_iff]

/-- **The different texts are listed in strictly increasing order.** -/
theorem pairwise_sortedSet (ts : List Text) : (sortedSet ts).Pairwise Lt :=
  pairwise_dedupSorted (pairwise_sort ts)

/-- **Strictly increasing lists with the same elements are equal.** -/
theorem eq_of_pairwise_lt {ts us : List Text} (ht : ts.Pairwise Lt) (hu : us.Pairwise Lt)
    (h : ∀ a, a ∈ ts ↔ a ∈ us) : ts = us := by
  have hnodup : ∀ l : List Text, l.Pairwise Lt → l.Nodup := fun l hl =>
    List.Pairwise.imp (fun {a b} (hab : Lt a b) (heq : a = b) => Lt.irrefl b (heq ▸ hab)) hl
  have hperm : ts.Perm us := (List.perm_ext_iff_of_nodup (hnodup ts ht) (hnodup us hu)).2 h
  exact hperm.eq_of_pairwise (fun a b _ _ hab hba => absurd hba hab.asymm) ht hu

theorem sortedSet_eq_iff {ts us : List Text} :
    sortedSet ts = sortedSet us ↔ ∀ a, a ∈ ts ↔ a ∈ us := by
  constructor
  · intro h a
    rw [← mem_sortedSet, h, mem_sortedSet]
  · intro h
    refine eq_of_pairwise_lt (pairwise_sortedSet ts) (pairwise_sortedSet us) fun a => ?_
    rw [mem_sortedSet, mem_sortedSet, h]

end CodeIndex.Text
