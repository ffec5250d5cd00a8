import CodeIndex.Ignore.Rule

/-!
# The last rule decides

A path is ignored exactly when some rule fits it and the last one that does is no negation
(`ignores_iff`), so what the rules before it say does not matter: a last rule that is no negation
ignores whatever it fits (`ignores_concat`). A pattern without sets fits itself (`Glob.fits_self`).
-/

namespace CodeIndex

/-! ## Patterns -/

namespace Glob

theorem accept_star {items : List GlobItem} {t : Text} (h : accept items t = true) :
    accept (.star :: items) t = true := by
  cases t with
  | nil => rwa [accept]
  | cons c t => rw [accept, h, Bool.true_or]

/-- **A pattern without sets fits its own text**: a star and a question mark stand for themselves
too. -/
theorem fits_self {pattern : Text} (h : '[' ∉ pattern) : fits pattern pattern = true := by
  rw [fits]
  fun_induction items pattern with
  | case1 => rw [accept]
  | case2 t ih =>
    -- the star stands for its own character and nothing more
    have hrest := accept_star (ih fun ht => h (List.mem_cons_of_mem _ ht))
    rw [accept, hrest, Bool.or_true]
  | case3 t ih => simp [accept, admits, ih fun ht => h (List.mem_cons_of_mem _ ht)]
  | case4 t _ _ => simp at h
  | case5 t _ _ _ _ => simp at h
  | case6 c t hstar hany hset ih =>
    simp [accept, admits, ih fun ht => h (List.mem_cons_of_mem _ ht)]

end Glob

/-! ## Rules -/

namespace IgnoreRule

/-- Some rule fits the path, and the last one that does is no negation. -/
def Ignored (rules : List IgnoreRule) (path : Text) (isDir : Bool) : Prop :=
  ∃ earlier r later, rules = earlier ++ r :: later ∧ r.fits path isDir = true ∧ r.negate = false ∧
    ∀ r' ∈ later, r'.fits path isDir = false

variable {path : Text} {isDir : Bool}

theorem not_ignored_nil : ¬ Ignored [] path isDir := by
  rintro ⟨earlier, r, later, h, -⟩
  simp at h

theorem ignored_cons {r : IgnoreRule} {rules : List IgnoreRule} :
    Ignored (r :: rules) path isDir ↔ Ignored rules path isDir ∨
      (r.fits path isDir = true ∧ r.negate = false ∧ ∀ r' ∈ rules, r'.fits path isDir = false) := by
  constructor
  · rintro ⟨earlier, r', later, h, hr'⟩
    cases earlier with
    | nil =>
      obtain ⟨rfl, rfl⟩ := List.cons.inj h
      exact .inr hr'
    | cons _ earlier =>
      obtain ⟨-, rfl⟩ := List.cons.inj h
      exact .inl ⟨earlier, r', later, rfl, hr'⟩
  · rintro (⟨earlier, r', later, rfl, hr'⟩ | hr)
    · exact ⟨r :: earlier, r', later, rfl, hr'⟩
    · exact ⟨[], r, rules, rfl, hr⟩

theorem foldl_fits_iff (rules : List IgnoreRule) (ignored : Bool) :
    rules.foldl (fun ignored r => if r.fits path isDir then !r.negate else ignored) ignored = true ↔
      Ignored rules path isDir ∨ (ignored = true ∧ ∀ r ∈ rules, r.fits path isDir = false) := by
  induction rules generalizing ignored with
  | nil => simp [not_ignored_nil]
  | cons r rules ih =>
    rw [List.foldl_cons, ih, ignored_cons, List.forall_mem_cons]
    cases r.fits path isDir <;> simp

/-- **The last rule that fits decides.** -/
theorem ignores_iff {rules : List IgnoreRule} :
    ignores rules path isDir = true ↔ Ignored rules path isDir := by
  rw [ignores, foldl_fits_iff]
  simp

/-- **A last rule that is no negation ignores what it fits**, whatever the rules before it say. -/
theorem ignores_concat {rules : List IgnoreRule} {r : IgnoreRule} (hnegate : r.negate = false) :
    ignores (rules ++ [r]) path isDir = (r.fits path isDir || ignores rules path isDir) := by
  rw [ignores, List.foldl_append, List.foldl_cons, List.foldl_nil, hnegate]
  cases r.fits path isDir <;> simp [ignores]

end IgnoreRule

end CodeIndex
