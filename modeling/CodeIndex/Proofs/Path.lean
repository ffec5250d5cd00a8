import Mathlib.Data.List.Basic
import CodeIndex.Path
import CodeIndex.Proofs.Text.Cut

/-!
# Components of a path

Splitting at a character undoes joining with it (`splitChar_join`). So a path made of names has
these names for its components (`components_join`), and a path that leads on from a directory has
the components of both (`components_append`).
-/

namespace CodeIndex

namespace Text

variable {sep : Char}

theorem splitCharFrom_of_not_mem {piece t : Text} (h : sep ∉ t) :
    splitCharFrom sep piece t = [piece.reverse ++ t] := by
  induction t generalizing piece with
  | nil => simp [splitCharFrom]
  | cons c t ih =>
    obtain ⟨hc, ht⟩ := not_or.1 (mt List.mem_cons.2 h)
    rw [splitCharFrom, if_neg (Ne.symm hc), ih ht]
    simp

theorem splitCharFrom_append {piece a : Text} (h : sep ∉ a) (b : Text) :
    splitCharFrom sep piece (a ++ sep :: b) = (piece.reverse ++ a) :: splitChar sep b := by
  induction a generalizing piece with
  | nil => simp [splitCharFrom, splitChar]
  | cons c a ih =>
    obtain ⟨hc, ha⟩ := not_or.1 (mt List.mem_cons.2 h)
    rw [List.cons_append, splitCharFrom, if_neg (Ne.symm hc), ih ha]
    simp

theorem splitChar_append {a : Text} (h : sep ∉ a) (b : Text) :
    splitChar sep (a ++ sep :: b) = a :: splitChar sep b :=
  splitCharFrom_append h b

/-- **Splitting undoes joining.** -/
theorem splitChar_join {parts : List Text} (hne : parts ≠ []) (h : ∀ p ∈ parts, sep ∉ p) :
    splitChar sep (join [sep] parts) = parts := by
  induction parts with
  | nil => exact absurd rfl hne
  | cons a parts ih =>
    obtain ⟨ha, hparts⟩ := List.forall_mem_cons.1 h
    cases parts with
    | nil =>
      rw [join_singleton, splitChar, splitCharFrom_of_not_mem ha, List.reverse_nil, List.nil_append]
    | cons b parts =>
      rw [join_cons_cons, List.singleton_append, splitChar_append ha, ih (by simp) hparts]

/-- No piece holds the character at which the text was split. -/
theorem not_mem_of_mem_splitCharFrom {piece t p : Text} (hpiece : sep ∉ piece)
    (hp : p ∈ splitCharFrom sep piece t) : sep ∉ p := by
  fun_induction splitCharFrom sep piece t with
  | case1 piece => simpa [List.mem_singleton.1 hp] using hpiece
  | case2 piece t ih =>
    rcases List.mem_cons.1 hp with rfl | hp
    · simpa using hpiece
    · exact ih (by simp) hp
  | case3 piece c t hc ih => exact ih (by simp [hpiece, Ne.symm hc]) hp

end Text

namespace Path

/-- The name of an entry: not empty, no single dot, and without slashes. -/
def IsName (n : Text) : Prop := n ≠ [] ∧ n ≠ ['.'] ∧ '/' ∉ n

instance (n : Text) : Decidable (IsName n) :=
  inferInstanceAs (Decidable (n ≠ [] ∧ n ≠ ['.'] ∧ '/' ∉ n))

theorem isName_of_mem_components {path n : Text} (h : n ∈ components path) : IsName n := by
  simp only [components, List.mem_filter, Bool.and_eq_true, decide_eq_true_eq] at h
  exact ⟨h.2.1, h.2.2, Text.not_mem_of_mem_splitCharFrom (by simp) h.1⟩

/-- **A path made of names has them for its components.** -/
theorem components_join {names : List Text} (h : ∀ n ∈ names, IsName n) :
    components (Text.join ['/'] names) = names := by
  cases names with
  | nil => rfl
  | cons n names =>
    rw [components, Text.splitChar_join (by simp) fun n hn => (h n hn).2.2, List.filter_eq_self]
    intro n hn
    simp [(h n hn).1, (h n hn).2.1]

theorem components_cons_slash (path : Text) : components ('/' :: path) = components path := by
  have : Text.splitChar '/' ('/' :: path) = [] :: Text.splitChar '/' path := rfl
  rw [components, this, List.filter_cons_of_neg (by simp), components]

theorem anchor_cases (path : Text) :
    anchor path = [] ∨ anchor path = ['/'] ∨ anchor path = ['/', '/'] := by
  unfold anchor
  split <;> simp

theorem components_ofComponents {path : Text} {names : List Text} (h : ∀ n ∈ names, IsName n) :
    components (ofComponents (anchor path) names) = names := by
  unfold ofComponents
  split
  · next hempty =>
    simp only [Bool.and_eq_true, decide_eq_true_eq, List.isEmpty_iff] at hempty
    rw [hempty.2]
    rfl
  · rcases anchor_cases path with ha | ha | ha <;> rw [ha]
    · exact components_join h
    · exact (components_cons_slash _).trans (components_join h)
    · exact ((components_cons_slash _).trans (components_cons_slash _)).trans (components_join h)

/-- **A path that leads on from a directory has the components of both.** -/
theorem components_append {path : Text} (h : isAbsolute path = false) (directory : Text) :
    components (append directory path) = components directory ++ components path := by
  rw [append, h, if_neg (by simp), components_ofComponents]
  intro n hn
  rcases List.mem_append.1 hn with hn | hn <;> exact isName_of_mem_components hn

/-- A path made of names starts with no slash. -/
theorem takeWhile_join {names : List Text} (h : ∀ n ∈ names, IsName n) :
    (Text.join ['/'] names).takeWhile (· = '/') = [] := by
  cases names with
  | nil => rfl
  | cons n names =>
    obtain ⟨hne, -, hslash⟩ := h n (by simp)
    obtain ⟨c, n, rfl⟩ := List.exists_cons_of_ne_nil hne
    have hc : c ≠ '/' := fun e => hslash (by simp [e])
    cases names with
    | nil => simp [hc]
    | cons m names => simp [Text.join_cons_cons, hc]

/-- A path made of names does not start at the root directory. -/
theorem isAbsolute_join {names : List Text} (h : ∀ n ∈ names, IsName n) :
    isAbsolute (Text.join ['/'] names) = false := by
  rw [isAbsolute, anchor, takeWhile_join h]
  rfl

end Path

end CodeIndex
