import CodeIndex.Proofs.Ignore.Rule
import CodeIndex.Proofs.Text.Blank
import CodeIndex.Proofs.Text.Cut

/-!
# Patterns without wildcards

A pattern without `*`, `?` and `[` fits its own text and nothing else (`Glob.fits_eq_true_iff`), so
what such a pattern says about a path can be told without globs: `Matches` is about its name, the
slashes around the name, the path and the components of the path. A list of such patterns ignores a
relative path or not as the last of them says that matches it (`ignores_literal`).

* `core` is a pattern without the `!` before it and the blanks around the rest.
* `IsWritten` cuts it into a slash that anchors it, a name, and a slash that restricts it to
  directories.
-/

namespace CodeIndex

/-! ## Globs -/

namespace Glob

/-- The pattern has no wildcards and no sets. -/
def IsLiteral (pattern : Text) : Prop := ∀ c ∈ pattern, c ≠ '*' ∧ c ≠ '?' ∧ c ≠ '['

instance (pattern : Text) : Decidable (IsLiteral pattern) :=
  inferInstanceAs (Decidable (∀ c ∈ pattern, c ≠ '*' ∧ c ≠ '?' ∧ c ≠ '['))

theorem IsLiteral.mono {pattern pattern' : Text} (h : IsLiteral pattern)
    (hsub : pattern' ⊆ pattern) : IsLiteral pattern' :=
  fun c hc => h c (hsub hc)

theorem items_of_isLiteral {pattern : Text} (h : IsLiteral pattern) :
    items pattern = pattern.map .char := by
  fun_induction items pattern with
  | case1 => rfl
  | case2 t => exact absurd rfl (h '*' (by simp)).1
  | case3 t => exact absurd rfl (h '?' (by simp)).2.1
  | case4 t => exact absurd rfl (h '[' (by simp)).2.2
  | case5 t => exact absurd rfl (h '[' (by simp)).2.2
  | case6 c t _ _ _ ih => rw [ih (h.mono (List.subset_cons_self c t)), List.map_cons]

theorem accept_chars {cs t : Text} : accept (cs.map .char) t = true ↔ t = cs := by
  induction cs generalizing t with
  | nil => cases t <;> simp [accept]
  | cons a cs ih =>
    cases t with
    | nil => simp [accept]
    | cons c t => simp [accept, admits, ih, @eq_comm _ a c]

/-- **A pattern without wildcards fits its own text and nothing else.** -/
theorem fits_eq_true_iff {pattern t : Text} (h : IsLiteral pattern) :
    fits pattern t = true ↔ t = pattern := by
  rw [fits, items_of_isLiteral h, accept_chars]

end Glob

namespace IgnoreRule

/-! ## The parts of a pattern -/

/-- A pattern without the `!` that negates it and without the blanks around the rest. -/
def core (pattern : Text) : Text :=
  Text.trim (if pattern.head? = some '!' then pattern.tail else pattern)

/-- A slash, or nothing. -/
def slashIf (b : Bool) : Text := if b then ['/'] else []

/-- A text is a slash or none, a name, and a slash or none. The slash at its end is none of the
name, nor is then the one at its start. -/
structure IsWritten (t : Text) (anchored : Bool) (name : Text) (directoryOnly : Bool) : Prop where
  eq : t = slashIf anchored ++ name ++ slashIf directoryOnly
  starts : name.head? = some '/' → anchored = true
  ends : t.getLast? = some '/' → directoryOnly = true

/-- A name with or without slashes around it stands for a path. With a slash behind it, it stands
for directories only. With one before it or inside, it stands for the path that is the name, and for
all below if a slash is behind it; any other name stands for the paths that have it as a component.
Slashes alone stand for nothing. -/
def StandsFor (anchored : Bool) (name : Text) (directoryOnly : Bool) (path : Text) (isDir : Bool) :
    Prop :=
  (∃ c ∈ name, c ≠ '/') ∧ (directoryOnly = true → isDir = true) ∧
    if anchored = true ∨ '/' ∈ name then
      path = name ∨ (directoryOnly = true ∧ ∃ below, path = name ++ '/' :: below)
    else name ∈ Text.splitChar '/' path

/-- A pattern without wildcards matches a path. -/
def Matches (pattern path : Text) (isDir : Bool) : Prop :=
  ∃ anchored name directoryOnly, IsWritten (core pattern) anchored name directoryOnly ∧
    StandsFor anchored name directoryOnly path isDir

theorem exists_isWritten (t : Text) :
    ∃ anchored name directoryOnly, IsWritten t anchored name directoryOnly := by
  -- the slash at the end comes first: a single slash is one at the end
  obtain ⟨s, d, heq, hends⟩ : ∃ s d, t = s ++ slashIf d ∧ (t.getLast? = some '/' → d = true) := by
    by_cases h : t.getLast? = some '/'
    · obtain ⟨s, rfl⟩ := List.getLast?_eq_some_iff.1 h
      exact ⟨s, true, rfl, fun _ => rfl⟩
    · exact ⟨t, false, by simp [slashIf], fun hends => absurd hends h⟩
  by_cases h : s.head? = some '/'
  · obtain ⟨name, rfl⟩ := List.head?_eq_some_iff.1 h
    exact ⟨true, name, d, heq, fun _ => rfl, hends⟩
  · exact ⟨false, s, d, by simpa [slashIf] using heq, fun hstarts => absurd hstarts h, hends⟩

variable {pattern path name : Text} {negate isDir anchored directoryOnly : Bool}

/-- **The rule of a pattern has the parts of the pattern.** -/
theorem ofPattern?_of_isWritten (h : IsWritten (Text.trim pattern) anchored name directoryOnly)
    (hne : Text.trim pattern ≠ []) :
    ofPattern? pattern negate =
      some { pattern := name, directoryOnly, anchored, negate, hasSlash := '/' ∈ name } := by
  have hends : Text.endsWithChar '/' (Text.trim pattern) = directoryOnly := by
    cases directoryOnly with
    | true => simp [h.eq, slashIf, Text.endsWithChar]
    | false =>
      refine Bool.eq_false_iff.2 fun hslash => ?_
      exact absurd (h.ends (by simpa [Text.endsWithChar] using hslash)) (by simp)
  have hbody : (if directoryOnly then (Text.trim pattern).dropLast else Text.trim pattern) =
      slashIf anchored ++ name := by
    rw [h.eq]
    cases directoryOnly <;> simp [slashIf]
  have hstarts : Text.startsWith ['/'] (slashIf anchored ++ name) = anchored := by
    cases anchored with
    | true => rfl
    | false =>
      refine Bool.eq_false_iff.2 fun hslash => ?_
      exact absurd (h.starts (Text.startsWith_char.1 hslash)) (by simp)
  have hname :
      (if anchored then (slashIf anchored ++ name).tail else slashIf anchored ++ name) = name := by
    cases anchored <;> simp [slashIf]
  rw [ofPattern?]
  split
  · next hnil => exact absurd hnil hne
  · simp only [hends, hbody, hstarts, hname]

theorem fits_iff {r : IgnoreRule} :
    r.fits path isDir = true ↔ r.pattern ≠ [] ∧ (r.directoryOnly = true → isDir = true) ∧
      if r.anchored = true ∨ r.hasSlash = true then
        Glob.fits r.pattern path = true ∨
          (r.directoryOnly = true ∧ Text.startsWith (r.pattern ++ ['/']) path = true)
      else ∃ part ∈ Text.splitChar '/' path, Glob.fits r.pattern part = true := by
  rw [fits]
  by_cases hnil : r.pattern = []
  · simp [hnil]
  by_cases hdir : r.directoryOnly = true ∧ isDir = false
  · simp [hdir]
  have hkept : r.directoryOnly = true → isDir = true := by simpa using hdir
  rw [if_neg (by simpa [hnil] using hkept), and_iff_right hnil, and_iff_right hkept]
  by_cases hwhole : r.anchored = true ∨ r.hasSlash = true <;> simp [hwhole]

/-- **A rule without wildcards fits the relative paths that its name stands for.** -/
theorem fits_iff_standsFor (hliteral : Glob.IsLiteral name) (hrelative : path.head? ≠ some '/') :
    IgnoreRule.fits { pattern := name, directoryOnly, anchored, negate, hasSlash := '/' ∈ name }
        path isDir = true ↔ StandsFor anchored name directoryOnly path isDir := by
  have hglob (t : Text) : Glob.fits name t = true ↔ t = name := Glob.fits_eq_true_iff hliteral
  have hbelow :
      Text.startsWith (name ++ ['/']) path = true ↔ ∃ below, path = name ++ '/' :: below := by
    rw [Text.startsWith, Option.isSome_iff_exists]
    simp [Text.after?_eq_some_iff]
  rw [fits_iff, StandsFor]
  simp only [hglob, hbelow, decide_eq_true_eq, exists_eq_right]
  refine and_congr_left fun hfits => ⟨fun hne => ?_, ?_⟩
  · -- a path that is a name of slashes alone, or lies below it, would start with a slash
    by_contra hslashes
    obtain ⟨c, rest, rfl⟩ := List.exists_cons_of_ne_nil hne
    obtain rfl : c = '/' := by
      by_contra hc
      exact hslashes ⟨c, by simp, hc⟩
    have hstands := hfits.2
    rw [if_pos (by simp)] at hstands
    rcases hstands with rfl | ⟨-, below, rfl⟩
    · exact hrelative rfl
    · exact hrelative rfl
  · rintro ⟨c, hc, -⟩
    exact List.ne_nil_of_mem hc

/-! ## Lists of patterns -/

theorem ofLine?_eq (pattern : Text) :
    ofLine? pattern = ofPattern? (if pattern.head? = some '!' then pattern.tail else pattern)
      (Text.startsWith ['!'] pattern) := by
  by_cases hhead : pattern.head? = some '!'
  · obtain ⟨rest, rfl⟩ := List.head?_eq_some_iff.1 hhead
    rfl
  · have hstarts : Text.startsWith ['!'] pattern = false :=
      Bool.eq_false_iff.2 (mt Text.startsWith_char.1 hhead)
    rw [if_neg hhead, hstarts, ofLine?]
    rintro rest rfl
    exact hhead rfl

theorem negate_of_ofLine? {r : IgnoreRule} (h : ofLine? pattern = some r) :
    r.negate = Text.startsWith ['!'] pattern := by
  rw [ofLine?_eq, ofPattern?] at h
  split at h
  · simp at h
  · rw [← Option.some.inj h]

/-- The rule of a pattern without wildcards fits the relative paths that the pattern matches. -/
theorem exists_fits_iff_matches (hliteral : Glob.IsLiteral pattern)
    (hrelative : path.head? ≠ some '/') :
    (∃ r, ofLine? pattern = some r ∧ r.fits path isDir = true) ↔ Matches pattern path isDir := by
  have hsub : core pattern ⊆ pattern := by
    refine List.Subset.trans (Text.strip_subset _ _) ?_
    split
    · exact List.tail_subset pattern
    · exact List.Subset.refl pattern
  have hname {anchored : Bool} {name : Text} {directoryOnly : Bool}
      (h : IsWritten (core pattern) anchored name directoryOnly) : Glob.IsLiteral name := by
    refine hliteral.mono (List.Subset.trans ?_ hsub)
    rw [h.eq]
    intro c hc
    simp [hc]
  constructor
  · rintro ⟨r, hr, hfits⟩
    obtain ⟨anchored, name, directoryOnly, hwritten⟩ := exists_isWritten (core pattern)
    have hne : core pattern ≠ [] := by
      intro hnil
      simp [ofLine?_eq, ofPattern?, show Text.trim _ = [] from hnil] at hr
    rw [ofLine?_eq, ofPattern?_of_isWritten hwritten hne] at hr
    obtain rfl := Option.some.inj hr
    exact ⟨anchored, name, directoryOnly, hwritten,
      (fits_iff_standsFor (hname hwritten) hrelative).1 hfits⟩
  · rintro ⟨anchored, name, directoryOnly, hwritten, hstands⟩
    have hne : core pattern ≠ [] := by
      obtain ⟨c, hc, -⟩ := hstands.1
      rw [hwritten.eq]
      exact List.ne_nil_of_mem (a := c) (by simp [hc])
    refine ⟨_, (ofLine?_eq pattern).trans (ofPattern?_of_isWritten hwritten hne), ?_⟩
    exact (fits_iff_standsFor (hname hwritten) hrelative).2 hstands

/-- Rules that do not fit change nothing. -/
theorem ignores_append {rules later : List IgnoreRule}
    (h : ∀ r ∈ later, r.fits path isDir = false) :
    ignores (rules ++ later) path isDir = ignores rules path isDir := by
  rw [ignores, List.foldl_append, ← ignores]
  induction later with
  | nil => rfl
  | cons r later ih =>
    obtain ⟨hr, hlater⟩ := List.forall_mem_cons.1 h
    rw [List.foldl_cons, hr, if_neg (by simp)]
    exact ih hlater

theorem ignores_of_fits {rules : List IgnoreRule} {r : IgnoreRule} (h : r.fits path isDir = true) :
    ignores (rules ++ [r]) path isDir = !r.negate := by
  rw [ignores, List.foldl_append, List.foldl_cons, List.foldl_nil, h, if_pos rfl]

/-- **The last pattern that matches decides**: a relative path is ignored if that pattern does not
start with `!`, and brought back if it does. A path that no pattern matches is not ignored. -/
theorem ignores_literal {patterns : List Text} (hliteral : ∀ p ∈ patterns, Glob.IsLiteral p)
    (hrelative : path.head? ≠ some '/') (isDir : Bool) :
    (∀ earlier p later, patterns = earlier ++ p :: later → Matches p path isDir →
      (∀ p' ∈ later, ¬ Matches p' path isDir) →
        (ignores (ofPatterns patterns) path isDir = true ↔ p.head? ≠ some '!')) ∧
    ((∀ p ∈ patterns, ¬ Matches p path isDir) →
      ignores (ofPatterns patterns) path isDir = false) := by
  have hidle {ps : List Text} (hps : ps ⊆ patterns) (hnone : ∀ p ∈ ps, ¬ Matches p path isDir) :
      ∀ r ∈ ofPatterns ps, r.fits path isDir = false := by
    intro r hr
    obtain ⟨p, hp, hrule⟩ := List.mem_filterMap.1 hr
    refine Bool.eq_false_iff.2 fun hfits => hnone p hp ?_
    exact (exists_fits_iff_matches (hliteral p (hps hp)) hrelative).1 ⟨r, hrule, hfits⟩
  constructor
  · rintro earlier p later rfl hmatches hnone
    obtain ⟨r, hrule, hfits⟩ :=
      (exists_fits_iff_matches (hliteral p (by simp)) hrelative).2 hmatches
    have hlater := hidle (fun q hq => by simp [hq]) hnone
    have hrules :
        ofPatterns (earlier ++ p :: later) = (ofPatterns earlier ++ [r]) ++ ofPatterns later := by
      simp [ofPatterns, hrule]
    rw [hrules, ignores_append hlater, ignores_of_fits hfits, negate_of_ofLine? hrule,
      Bool.not_eq_true', Bool.eq_false_iff, ne_eq, Text.startsWith_char]
  · intro hnone
    exact (@ignores_append path isDir [] _ (hidle (List.Subset.refl _) hnone)).trans rfl

/-- Directories named `docs` are ignored, but not those below `src/docs`. -/
def docsPatterns : List Text := ["docs/".toList, "! /src/docs/ ".toList, "//".toList]

theorem ignores_literal_docsPatterns :
    (∀ p ∈ docsPatterns, Glob.IsLiteral p) ∧
      ignores (ofPatterns docsPatterns) "src/docs/api".toList true = false := by
  have hliteral : ∀ p ∈ docsPatterns, Glob.IsLiteral p := by decide
  have hbelow : Matches "! /src/docs/ ".toList "src/docs/api".toList true :=
    ⟨true, "src/docs".toList, true, ⟨by decide, by decide, by decide⟩, ⟨'s', by decide⟩, by decide,
      .inr ⟨rfl, "api".toList, by decide⟩⟩
  have hslashes : ∀ p ∈ ["//".toList], ¬ Matches p "src/docs/api".toList true := by
    rintro p hp ⟨anchored, name, directoryOnly, hwritten, ⟨c, hc, hne⟩, -⟩
    obtain rfl := List.mem_singleton.1 hp
    have hmem : c ∈ core "//".toList := by
      rw [hwritten.eq]
      simp [hc]
    exact hne ((by decide : ∀ c ∈ core "//".toList, c = '/') c hmem)
  have hback :=
    (ignores_literal hliteral (by decide) true).1 ["docs/".toList] _ _ rfl hbelow hslashes
  exact ⟨hliteral, Bool.eq_false_iff.2 fun h => hback.1 h rfl⟩

end IgnoreRule

end CodeIndex
