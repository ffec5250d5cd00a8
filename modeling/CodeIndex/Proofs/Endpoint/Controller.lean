import Mathlib.Data.List.Forall2
import CodeIndex.Endpoint.Controller
import CodeIndex.Extract
import CodeIndex.Proofs.Endpoint.JoinedPath
import CodeIndex.Proofs.Text.Lines

/-!
# Which controller gives a route its base

All routes of a file get the base of the first controller in the text (`FirstController`), also
those that follow another one. A route below several controllers has the path that its own
controller, the nearest one before it (`NearestController`), would give it exactly when the two
bases agree up to the slashes at their ends (`controllerRoutes_path_iff`). In a file with two
controllers the routes of the second come out below the first (`controllerRoutes_secondController`).

What a controller is, and which path it gives, is told by `IsController` without the scanner that
reads it.
-/

namespace CodeIndex

open Text

namespace Endpoint

open RoutePath

/-! ## Controllers -/

theorem isBlank_of_isScriptQuote {q : Char} (h : isScriptQuote q = true) : isBlank q = false := by
  simp only [isScriptQuote, Bool.or_eq_true, decide_eq_true_eq] at h
  rcases h with (rfl | rfl) | rfl <;> decide

/-- A text in quotes is what stands between two quotes of one kind, with no quote of any kind in
it. -/
theorem scriptString?_eq_some_iff {t path rest : Text} :
    scriptString? t = some (path, rest) ↔
      ∃ q, t = q :: (path ++ q :: rest) ∧ isScriptQuote q = true ∧
        ∀ c ∈ path, isScriptQuote c = false := by
  constructor
  · intro h
    cases t with
    | nil => exact absurd h (by simp [scriptString?])
    | cons q t =>
      rw [scriptString?] at h
      split at h
      · next hq =>
        rw [List.span_eq_takeWhile_dropWhile] at h
        split at h
        · next s q' rest' hspan =>
          split at h
          · next heq =>
            obtain ⟨hs, hrest⟩ := Prod.mk.inj hspan
            obtain ⟨rfl, rfl⟩ := Prod.mk.inj (Option.some.inj h)
            refine ⟨q, ?_, hq, fun c hc => ?_⟩
            · rw [← heq, ← hrest, ← hs, List.takeWhile_append_dropWhile, heq]
            · rw [← hs] at hc
              simpa using List.mem_takeWhile_imp hc
          · exact absurd h (by simp)
        · exact absurd h (by simp)
      · exact absurd h (by simp)
  · rintro ⟨q, rfl, hq, hpath⟩
    have hspan : (path ++ q :: rest).span (!isScriptQuote ·) = (path, q :: rest) := by
      have hnot : ∀ c ∈ path, (!isScriptQuote c) = true := fun c hc => by rw [hpath c hc]; rfl
      rw [List.span_eq_takeWhile_dropWhile, List.takeWhile_append_of_pos hnot,
        List.dropWhile_append_of_pos hnot]
      simp [hq]
    rw [scriptString?, if_pos hq, hspan]
    exact if_pos rfl

/-- Behind blanks, the text goes on with a path in quotes. -/
def GivesPath (t path : Text) : Prop :=
  ∃ s q rest, t = s ++ q :: (path ++ q :: rest) ∧ (∀ c ∈ s, isBlank c = true) ∧
    isScriptQuote q = true ∧ ∀ c ∈ path, isScriptQuote c = false

theorem givesPath_iff {t path : Text} :
    GivesPath t path ↔ ∃ rest, scriptString? (trimLeft t) = some (path, rest) := by
  constructor
  · rintro ⟨s, q, rest, rfl, hs, hq, hpath⟩
    refine ⟨rest, ?_⟩
    rw [trimLeft_append hs, trimLeft_cons (isBlank_of_isScriptQuote hq)]
    exact scriptString?_eq_some_iff.2 ⟨q, rfl, hq, hpath⟩
  · rintro ⟨rest, h⟩
    obtain ⟨q, ht, hq, hpath⟩ := scriptString?_eq_some_iff.1 h
    obtain ⟨s, hs, hsplit⟩ := exists_blanks_append_trimLeft t
    exact ⟨s, q, rest, by rw [hsplit, ht], hs, hq, hpath⟩

/-- A text starts with a controller decorator and the base it gives: the path in its parentheses, or
the empty path if there is none. -/
inductive IsController : Text → Text → Prop
  | withPath {t path : Text} (h : GivesPath t path) : IsController ("@Controller(".toList ++ t) path
  | withoutPath {t : Text} (h : ∀ path, ¬ GivesPath t path) :
      IsController ("@Controller(".toList ++ t) []

/-- **The scanner reads controllers and their bases.** -/
theorem isController_iff {before : Option Char} {t base : Text} :
    IsController t base ↔ (controller before t).map (·.1) = some base := by
  constructor
  · rintro (⟨h⟩ | ⟨h⟩)
    · next t =>
      obtain ⟨rest, hread⟩ := givesPath_iff.1 h
      simp only [controller, after?_append, Option.bind_eq_bind, Option.bind_some, hread,
        Option.map_some]
    · next t =>
      have hnone : scriptString? (trimLeft t) = none := by
        by_contra hsome
        obtain ⟨⟨path, rest⟩, hread⟩ := Option.ne_none_iff_exists'.1 hsome
        exact h path (givesPath_iff.2 ⟨rest, hread⟩)
      simp only [controller, after?_append, Option.bind_eq_bind, Option.bind_some, hnone,
        Option.map_some]
  · intro h
    obtain ⟨⟨base', rest⟩, hread, rfl⟩ := Option.map_eq_some_iff.1 h
    simp only [controller, Option.bind_eq_bind, Option.bind_eq_some_iff] at hread
    obtain ⟨u, hu, hread⟩ := hread
    obtain rfl := after?_eq_some_iff.1 hu
    split at hread
    · next path rest' hpath =>
      obtain ⟨rfl, -⟩ := Prod.mk.inj (Option.some.inj hread)
      exact .withPath (givesPath_iff.2 ⟨rest', hpath⟩)
    · next hnone =>
      obtain ⟨rfl, -⟩ := Prod.mk.inj (Option.some.inj hread)
      refine .withoutPath fun path hpath => ?_
      obtain ⟨rest', hpath⟩ := givesPath_iff.1 hpath
      rw [hnone] at hpath
      exact absurd hpath (by simp)

instance (t base : Text) : Decidable (IsController t base) :=
  decidable_of_iff _ (@isController_iff none t base).symm

theorem controller_eq_none_iff {before : Option Char} {t : Text} :
    controller before t = none ↔ ∀ b, ¬ IsController t b := by
  constructor
  · intro h b hb
    rw [@isController_iff before, h] at hb
    exact absurd hb (by simp)
  · intro h
    by_contra hsome
    obtain ⟨⟨b, rest⟩, hread⟩ := Option.ne_none_iff_exists'.1 hsome
    exact h b (isController_iff.2 (congrArg (Option.map (·.1)) hread))

theorem IsController.unique {t base base' : Text} (h : IsController t base)
    (h' : IsController t base') : base = base' :=
  Option.some.inj (((@isController_iff none t base).1 h).symm.trans (isController_iff.1 h'))

theorem IsController.ne_nil {t base : Text} (h : IsController t base) : t ≠ [] := by
  cases h <;> exact List.cons_ne_nil _ _

section Places

variable {content : Text}

/-- The base that the first controller of the content gives. -/
def FirstController (content base : Text) : Prop :=
  ∃ p, IsController (content.drop p) base ∧ ∀ p' < p, ∀ b, ¬ IsController (content.drop p') b

/-- The base that the nearest controller before a position of the content gives. -/
def NearestController (content : Text) (pos : Nat) (base : Text) : Prop :=
  ∃ p < pos, IsController (content.drop p) base ∧
    ∀ p', p < p' → p' < pos → ∀ b, ¬ IsController (content.drop p') b

/-- Behind a controller, one of them is the nearest. -/
theorem exists_nearestController {pos p : Nat} (hp : p < pos) {b : Text}
    (h : IsController (content.drop p) b) : ∃ base, NearestController content pos base := by
  induction pos with
  | zero => exact absurd hp (Nat.not_lt_zero p)
  | succ pos ih =>
    by_cases hlast : ∃ b, IsController (content.drop pos) b
    · obtain ⟨base, hbase⟩ := hlast
      exact ⟨base, pos, Nat.lt_succ_self pos, hbase, fun p' hp' hlt => by omega⟩
    · have hne : p ≠ pos := by
        rintro rfl
        exact hlast ⟨b, h⟩
      obtain ⟨base, q, hq, hbase, hbetween⟩ := ih (by omega)
      refine ⟨base, q, by omega, hbase, fun p' hp' hlt b' hb' => ?_⟩
      rcases Nat.eq_or_lt_of_le (Nat.le_of_lt_succ hlt) with rfl | hlt
      · exact hlast ⟨b', hb'⟩
      · exact hbetween p' hp' hlt b' hb'

theorem FirstController.unique {base base' : Text} (h : FirstController content base)
    (h' : FirstController content base') : base = base' := by
  obtain ⟨p, hp, hfirst⟩ := h
  obtain ⟨p', hp', hfirst'⟩ := h'
  rcases Nat.lt_trichotomy p p' with hlt | rfl | hlt
  · exact absurd hp (hfirst' p hlt base)
  · exact hp.unique hp'
  · exact absurd hp' (hfirst p' hlt base')

theorem hitIn?_controller_eq_none {p : Nat} :
    hitIn? controller content p = none ↔ ∀ b, ¬ IsController (content.drop p) b := by
  rw [hitIn?, hitAt?, Option.map_eq_none_iff, controller_eq_none_iff]

/-- The search for a controller finds the first one. -/
theorem firstController_of_search? {hit : Hit Text} (h : search? controller content = some hit) :
    FirstController content hit.value := by
  obtain ⟨-, -, hfound, hfirst⟩ := search?_eq_some_iff.1 h
  obtain ⟨-, hread⟩ := of_hitIn? hfound
  refine ⟨hit.start, isController_iff.2 (congrArg (Option.map (·.1)) hread), fun p hp => ?_⟩
  exact hitIn?_controller_eq_none.1 (hfirst p (Nat.zero_le p) hp)

theorem search?_controller_eq_none :
    search? controller content = none ↔ ∀ p b, ¬ IsController (content.drop p) b := by
  rw [search?_eq_none_iff]
  constructor
  · intro h p b hb
    have hp : p ≤ content.length := by
      by_contra hlt
      exact hb.ne_nil (List.drop_eq_nil_of_le (Nat.le_of_not_le hlt))
    exact hitIn?_controller_eq_none.1 (h p hp) b hb
  · intro h p _
    exact hitIn?_controller_eq_none.2 (h p)

end Places

/-! ## Routes -/

/-- The endpoint of a route decorator in a file whose first controller gives the base `first`: it
has the verb, the line and the path of the decorator, below that base. -/
structure RoutedBelow (content first : Text) (route : Hit (Text × Text)) (e : Endpoint) : Prop where
  method : e.method = upper route.value.1
  line : e.line = lineOf content route.start
  path : e.path = join first route.value.2
  /-- One of the controllers before the decorator is the nearest, if there are any. -/
  exists_nearest : ∀ p < route.start, ∀ b, IsController (content.drop p) b →
    ∃ base, NearestController content route.start base
  /-- The nearest one would give the same path exactly if it gives the same base. -/
  nearest_iff : ∀ base, NearestController content route.start base →
    (e.path = join base route.value.2 ↔ bare base = bare first)

/-- **All routes of a file stand below its first controller.** Without a controller there are no
endpoints. Otherwise there is one for each route decorator, below the base that the first controller
of the file gives, and a route that follows a controller has the path below the nearest one exactly
when the nearest one gives the base of the first, up to slashes at its ends. -/
theorem controllerRoutes_path_iff (outline : Outline) (content : Text) :
    ((∀ p b, ¬ IsController (content.drop p) b) → controllerRoutes outline content = []) ∧
      ∀ first, FirstController content first →
        List.Forall₂ (RoutedBelow content first) (searchAll controllerRoute content)
          (controllerRoutes outline content) := by
  constructor
  · intro hnone
    rw [controllerRoutes, search?_controller_eq_none.2 hnone]
  · intro first hfirst
    obtain ⟨hit, hhit⟩ : ∃ hit, search? controller content = some hit := by
      apply Option.ne_none_iff_exists'.1
      rw [Ne, search?_controller_eq_none]
      intro hnone
      obtain ⟨p, hp, -⟩ := hfirst
      exact hnone p first hp
    obtain rfl : hit.value = first := (firstController_of_search? hhit).unique hfirst
    simp only [controllerRoutes, hhit]
    rw [List.forall₂_map_right_iff, List.forall₂_same]
    intro route _
    refine ⟨rfl, rfl, rfl, fun p hp b hb => exists_nearestController hp hb, fun base _ => ?_⟩
    exact join_left_inj.trans eq_comm

/-- Two controllers with a route each. -/
def twoControllers : Text :=
  unlines (["@Controller('a')", "class A \x7b", "  @Get('x')", "  x() \x7b\x7d", "\x7d",
    "@Controller('b')", "class B \x7b", "  @Get('y')", "  y() \x7b\x7d", "\x7d"].map String.toList)

theorem controllerRoutes_path_twoControllers :
    (FirstController twoControllers "a".toList ∧
      ∃ outline broken, Extractor.script.extract {} "/".toList "/c.ts".toList twoControllers =
          .ok (outline, broken) ∧
        List.Forall₂ (RoutedBelow twoControllers "a".toList)
          (searchAll controllerRoute twoControllers) (controllerRoutes outline twoControllers)) ∧
      (∀ p b, ¬ IsController ("@Get()\nrun() ".toList.drop p) b) ∧
        ∀ outline, controllerRoutes outline "@Get()\nrun() ".toList = [] := by
  have hfirst : FirstController twoControllers "a".toList :=
    ⟨0, by decide +kernel, fun p hp => absurd hp (Nat.not_lt_zero p)⟩
  have hnone : ∀ p b, ¬ IsController ("@Get()\nrun() ".toList.drop p) b :=
    search?_controller_eq_none.1 (Option.isNone_iff_eq_none.1 (by decide +kernel))
  exact ⟨⟨hfirst, _, _, rfl, (controllerRoutes_path_iff _ _).2 _ hfirst⟩, hnone,
    fun outline => (controllerRoutes_path_iff outline _).1 hnone⟩

/-- **The routes of a second controller come out below the first.** The nearest controller before
the second route gives the base `b`, and the route has the path `/a/y`. -/
theorem controllerRoutes_secondController :
    ∃ outline broken, Extractor.script.extract {} "/".toList "/c.ts".toList twoControllers =
        .ok (outline, broken) ∧
      (searchAll controllerRoute twoControllers).map (fun route => (route.start, route.value.2)) =
        [(29, "x".toList), (79, "y".toList)] ∧
      (controllerRoutes outline twoControllers).map (fun e => (e.line, e.path)) =
        [(3, "/a/x".toList), (8, "/a/y".toList)] ∧
      NearestController twoControllers 79 "b".toList ∧
        RoutePath.join "b".toList "y".toList = "/b/y".toList := by
  refine ⟨_, _, rfl, by decide +kernel, by decide +kernel, ⟨50, by decide, by decide +kernel, ?_⟩,
    by decide +kernel⟩
  have hbetween : ∀ p < 79, 50 < p → controller none (twoControllers.drop p) = none := by
    decide +kernel
  exact fun p hp hlt => controller_eq_none_iff.1 (hbetween p hlt hp)

end Endpoint

end CodeIndex
