import Mathlib.Data.List.Chain
import CodeIndex.Endpoint.RoutePath
import CodeIndex.Proofs.Text.Blank

/-!
# Joined paths

Without the slash at its start, a joined path is its parts without the slashes at their ends, glued
by a slash unless one of them is empty (`join_eq`). Gluing is associative with the empty text as its
unit, and leaves no slash at the ends, so that joining a joined path goes on where the join before
it ended (`bare_join`). All laws of joined paths are laws of gluing (`join_normalises`).
-/

namespace CodeIndex.RoutePath

open Text

/-! ## Gluing -/

/-- Two texts with a slash between them, or the other one if one is empty. -/
def glue (s t : Text) : Text := if t = [] then s else if s = [] then t else s ++ '/' :: t

@[simp] theorem glue_nil (s : Text) : glue s [] = s := if_pos rfl

@[simp] theorem nil_glue (t : Text) : glue [] t = t := by
  rw [glue, if_pos rfl]
  split
  · next h => exact h.symm
  · rfl

theorem glue_of_ne_nil {s t : Text} (hs : s ≠ []) (ht : t ≠ []) : glue s t = s ++ '/' :: t := by
  rw [glue, if_neg ht, if_neg hs]

theorem glue_assoc (s t u : Text) : glue (glue s t) u = glue s (glue t u) := by
  by_cases hs : s = []
  · rw [hs, nil_glue, nil_glue]
  by_cases ht : t = []
  · rw [ht, glue_nil, nil_glue]
  by_cases hu : u = []
  · rw [hu, glue_nil, glue_nil]
  rw [glue_of_ne_nil hs ht, glue_of_ne_nil ht hu, glue_of_ne_nil (by simp) hu,
    glue_of_ne_nil hs (by simp), List.append_assoc, List.cons_append]

/-- A text is glued to different ones with different results. -/
theorem glue_left_inj {a b t : Text} : glue a t = glue b t ↔ a = b := by
  refine ⟨fun h => ?_, fun h => by rw [h]⟩
  by_cases ht : t = []
  · rwa [ht, glue_nil, glue_nil] at h
  -- a slash stands behind a text before `t`, so that the result is longer than `t`
  have hlonger {s : Text} (hs : s ≠ []) : glue s t ≠ t := by
    intro heq
    have hlength := congrArg List.length heq
    rw [glue_of_ne_nil hs ht, List.length_append, List.length_cons] at hlength
    omega
  by_cases ha : a = []
  · by_contra hne
    rw [ha, nil_glue] at h
    exact hlonger (fun hb => hne (by rw [ha, hb])) h.symm
  · by_cases hb : b = []
    · rw [hb, nil_glue] at h
      exact absurd h (hlonger ha)
    · rw [glue_of_ne_nil ha ht, glue_of_ne_nil hb ht] at h
      exact List.append_cancel_right h

/-- No slash stands at an end of the text. -/
abbrev IsBare (t : Text) : Prop := Stripped (· = '/') t

theorem isBare_bare (t : Text) : IsBare (bare t) := stripped_strip _ t

/-- **Texts without slashes at their ends are glued to such a text.** -/
theorem IsBare.glue {s t : Text} (hs : IsBare s) (ht : IsBare t) : IsBare (glue s t) := by
  by_cases hsnil : s = []
  · rwa [hsnil, nil_glue]
  by_cases htnil : t = []
  · rwa [htnil, glue_nil]
  rw [glue_of_ne_nil hsnil htnil]
  obtain ⟨c, s, rfl⟩ := List.exists_cons_of_ne_nil hsnil
  constructor
  · intro d hd
    exact hs.starts d hd
  · intro d hd
    rw [List.getLast?_append_of_ne_nil _ (List.cons_ne_nil _ _),
      List.getLast?_cons_of_ne_nil htnil] at hd
    exact ht.ends d hd

/-! ## Joining -/

theorem join_eq (base route : Text) : join base route = '/' :: glue (bare base) (bare route) := by
  by_cases hbase : bare base = [] <;> by_cases hroute : bare route = []
  · simp [join, hbase, hroute, Text.join]
  · simp [join, hbase, hroute]
  · simp [join, hbase, hroute]
  · simp [join, hbase, hroute, join_cons_cons, glue_of_ne_nil]

/-- **Two bases give a route the same path exactly when they agree up to the slashes at their
ends.** -/
theorem join_left_inj {a b route : Text} : join a route = join b route ↔ bare a = bare b := by
  rw [join_eq, join_eq, List.cons_inj_right, glue_left_inj]

theorem bare_slashes (m n : Nat) (t : Text) :
    bare (List.replicate m '/' ++ (t ++ List.replicate n '/')) = bare t := by
  have hslash (n : Nat) : ∀ c ∈ List.replicate n '/', decide (c = '/') = true := by
    intro c hc
    rw [List.eq_of_mem_replicate hc]
    rfl
  exact strip_append (hslash m) (hslash n) t

/-- **Without the slash at its start, a joined path has no slash at its ends.** -/
theorem bare_join (a b : Text) : bare (join a b) = glue (bare a) (bare b) := by
  have hslash := bare_slashes 1 0 (glue (bare a) (bare b))
  rw [List.replicate_zero, List.append_nil] at hslash
  rw [join_eq]
  exact hslash.trans ((isBare_bare a).glue (isBare_bare b)).strip_eq

/-! ## Double slashes -/

theorem not_doubleSlash_iff {t : Text} :
    ¬ "//".toList <:+: t ↔ t.IsChain fun c d => ¬ (c = '/' ∧ d = '/') := by
  rw [List.isChain_iff_forall_rel_of_append_cons_cons]
  constructor
  · rintro h c d s u rfl ⟨rfl, rfl⟩
    exact h ⟨s, u, by simp⟩
  · rintro h ⟨s, u, rfl⟩
    have hpair : s ++ "//".toList ++ u = s ++ '/' :: '/' :: u := by simp
    exact h hpair ⟨rfl, rfl⟩

/-- A slash before a text without one at its start. -/
theorem not_doubleSlash_cons {t : Text} (ht : IsBare t) (h : ¬ "//".toList <:+: t) :
    ¬ "//".toList <:+: '/' :: t := by
  rw [not_doubleSlash_iff] at h ⊢
  refine List.isChain_cons.2 ⟨fun c hc => ?_, h⟩
  rintro ⟨-, rfl⟩
  exact absurd (ht.starts _ hc) (by decide)

theorem not_doubleSlash_glue {s t : Text} (hs : IsBare s) (ht : IsBare t)
    (hs' : ¬ "//".toList <:+: s) (ht' : ¬ "//".toList <:+: t) : ¬ "//".toList <:+: glue s t := by
  by_cases hsnil : s = []
  · rwa [hsnil, nil_glue]
  by_cases htnil : t = []
  · rwa [htnil, glue_nil]
  have hcons := not_doubleSlash_cons ht ht'
  rw [glue_of_ne_nil hsnil htnil]
  rw [not_doubleSlash_iff] at hs' hcons ⊢
  refine List.isChain_append.2 ⟨hs', hcons, fun c hc d _ => ?_⟩
  rintro ⟨rfl, -⟩
  exact absurd (hs.ends _ hc) (by decide)

/-- **Joining paths is associative and normalises them.** The empty text adds nothing on either
side, and joining it to a joined path changes nothing. Slashes at the ends of the parts do not
matter. The path starts with a slash, ends with one only if it is a slash, and has no double slash
unless a part has one between its ends. -/
theorem join_normalises (a b c : Text) :
    join (join a b) c = join a (join b c) ∧
      join a [] = join [] a ∧ join (join a b) [] = join a b ∧
      (∀ m n m' n', join (List.replicate m '/' ++ (a ++ List.replicate n '/'))
        (List.replicate m' '/' ++ (b ++ List.replicate n' '/')) = join a b) ∧
      (join a b).head? = some '/' ∧ ((join a b).getLast? = some '/' → join a b = ['/']) ∧
      (¬ "//".toList <:+: bare a → ¬ "//".toList <:+: bare b → ¬ "//".toList <:+: join a b) := by
  have hbare := (isBare_bare a).glue (isBare_bare b)
  have hnil : bare [] = [] := rfl
  refine ⟨?_, ?_, ?_, fun m n m' n' => ?_, ?_, fun hlast => ?_, fun ha hb => ?_⟩
  · rw [join_eq (join a b), join_eq a (join b c), bare_join, bare_join, glue_assoc]
  · rw [join_eq, join_eq, hnil, glue_nil, nil_glue]
  · rw [join_eq (join a b), bare_join, hnil, glue_nil, join_eq]
  · rw [join_eq, join_eq, bare_slashes, bare_slashes]
  · rw [join_eq, List.head?_cons]
  · rw [join_eq] at hlast ⊢
    by_cases hempty : glue (bare a) (bare b) = []
    · rw [hempty]
    · rw [List.getLast?_cons_of_ne_nil hempty] at hlast
      exact absurd (hbare.ends _ hlast) (by decide)
  · rw [join_eq]
    exact not_doubleSlash_cons hbare (not_doubleSlash_glue (isBare_bare a) (isBare_bare b) ha hb)

/-- A base and a route with slashes at their ends, and two parts that are nothing else. -/
theorem join_normalises_users :
    join "//api/".toList "/users//".toList = "/api/users".toList ∧
      ¬ "//".toList <:+: bare "//api/".toList ∧ ¬ "//".toList <:+: bare "/users//".toList ∧
      ¬ "//".toList <:+: join "//api/".toList "/users//".toList ∧
      (join "//".toList "/".toList).getLast? = some '/' ∧ join "//".toList "/".toList = ['/'] := by
  obtain ⟨-, -, -, -, -, -, hsingle⟩ := join_normalises "//api/".toList "/users//".toList []
  obtain ⟨-, -, -, -, -, hlast, -⟩ := join_normalises "//".toList "/".toList []
  have hbase : ¬ "//".toList <:+: bare "//api/".toList := by decide
  have hroute : ¬ "//".toList <:+: bare "/users//".toList := by decide
  exact ⟨by decide, hbase, hroute, hsingle hbase hroute, by decide, hlast (by decide)⟩

end CodeIndex.RoutePath
