import CodeIndex.Proofs.Indented.Unclosed
import CodeIndex.Schema.ModelField

/-!
# The text between the parentheses of a call

`Enclosed t inside` says what stands between a parenthesis and the one that matches it, when `t`
stands behind the first: the text up to the first place where more parentheses are closed than
opened, or all of `t` if there is no such place.

The readers of signatures and of model fields split such a text into arguments. A look-ahead that
ends leaves a text with a match (`exists_matched_of_not_unclosed`), and what is split is then the
enclosed text. Without a match they drop a closing parenthesis at the end of the text, as if it were
the match: so they split the enclosed text unless it is unmatched and ends like that
(`argumentText_enclosed`).
-/

namespace CodeIndex

namespace Text

/-! ## Matching parentheses -/

/-- Behind `inside` stands the parenthesis that matches one before the text. -/
def Matched (t inside : Text) : Prop := ParensNested inside ∧ ∃ rest, t = inside ++ ')' :: rest

/-- No parenthesis of the text matches one before it. -/
def Unmatched (t : Text) : Prop := ∀ inside, ¬ Matched t inside

/-- What stands between a parenthesis before the text and the one that matches it, or the whole
text. -/
inductive Enclosed (t : Text) : Text → Prop
  | matched {inside : Text} (h : Matched t inside) : Enclosed t inside
  | unmatched (h : Unmatched t) : Enclosed t t

variable {t inside : Text}

/-- A text that closes no more parentheses than it opens, all along, has no match. -/
theorem unmatched_of_opened (h : ∀ u, u <+: t → 0 ≤ parenDepth u) : Unmatched t := by
  rintro inside ⟨hnested, rest, rfl⟩
  have hclosed := h (inside ++ [')']) ⟨rest, by simp⟩
  rw [parenDepth_append, hnested.closed] at hclosed
  exact absurd hclosed (by decide)

/-- **There is a match, or no parenthesis before the text is closed in it.** -/
theorem exists_matched_or_opened (t : Text) :
    (∃ inside, Matched t inside) ∨ ∀ u, u <+: t → 0 ≤ parenDepth u := by
  rcases exists_closing_or_opened (show '(' ≠ ')' by decide) t with
    ⟨inside, rest, rfl, hnested⟩ | hopened
  · exact .inl ⟨inside, ⟨hnested.closed, hnested.opened⟩, rest, rfl⟩
  · exact .inr hopened

theorem unmatched_iff : Unmatched t ↔ ∀ u, u <+: t → 0 ≤ parenDepth u := by
  refine ⟨fun h => ?_, unmatched_of_opened⟩
  rcases exists_matched_or_opened t with ⟨inside, hmatched⟩ | hopened
  · exact absurd hmatched (h inside)
  · exact hopened

instance (t : Text) : Decidable (Unmatched t) :=
  decidable_of_iff (∀ u ∈ t.inits, 0 ≤ parenDepth u) <| by
    simp only [unmatched_iff, List.mem_inits]

theorem Matched.not_unmatched (h : Matched t inside) : ¬ Unmatched t := fun hu => hu inside h

/-! ## What is split -/

/-- The text that is split into the arguments of a call, when `t` stands behind its parenthesis. -/
def argumentText (t : Text) : Text := callArguments (captureCall ('(' :: t))

theorem argumentText_of_matched (h : Matched t inside) : argumentText t = inside := by
  obtain ⟨hnested, rest, rfl⟩ := h
  rw [argumentText, captureCall_parensNested hnested, callArguments_parenthesised]

/-- Without a match, all of the text is captured. -/
theorem captureCall_of_unmatched (h : Unmatched t) : captureCall ('(' :: t) = '(' :: t :=
  captureBalanced_of_opened (by decide) (unmatched_iff.1 h)

/-- Without a match, a closing parenthesis at the end is lost. -/
theorem argumentText_of_unmatched (h : Unmatched t) :
    argumentText t = if endsWithChar ')' t then t.dropLast else t := by
  have hends : endsWithChar ')' ('(' :: t) = endsWithChar ')' t := by
    cases t with
    | nil => decide
    | cons c t => rw [endsWithChar, endsWithChar, List.getLast?_cons_cons]
  rw [argumentText, captureCall_of_unmatched h, callArguments, hends, List.tail_cons]

theorem argumentText_concat (h : Unmatched t) (hends : endsWithChar ')' t = true) :
    argumentText t ++ [')'] = t := by
  rw [argumentText_of_unmatched h, if_pos hends]
  exact List.dropLast_append_getLast? ')' (by simpa [endsWithChar] using hends)

/-- **What is split is the enclosed text**, unless a parenthesis at the end is taken for the match
that there is not. -/
theorem enclosed_argumentText_iff :
    Enclosed t (argumentText t) ↔ ¬ (Unmatched t ∧ endsWithChar ')' t = true) := by
  constructor
  · rintro henclosed ⟨hu, hends⟩
    have hconcat := argumentText_concat hu hends
    generalize argumentText t = args at henclosed hconcat
    cases henclosed with
    | matched hmatched => exact hmatched.not_unmatched hu
    | unmatched _ => exact absurd (congrArg List.length hconcat) (by simp)
  · intro h
    by_cases hu : Unmatched t
    · have hends : ¬ endsWithChar ')' t = true := fun hends => h ⟨hu, hends⟩
      rw [argumentText_of_unmatched hu, if_neg hends]
      exact .unmatched hu
    · obtain ⟨inside, hmatched⟩ : ∃ inside, Matched t inside := by
        simpa [Unmatched] using hu
      rw [argumentText_of_matched hmatched]
      exact .matched hmatched

end Text

namespace Indented

open Text

variable {t : Text} {following : List Text}

/-- The text of a call that the look-ahead closes starts with its parenthesis, and no more
parentheses are opened in it than closed. -/
theorem exists_text_of_not_unclosed (h : ¬ Unclosed ('(' :: t) following) :
    ∃ u, (collectCall ('(' :: t) following).text = '(' :: u ∧ parenDepth ('(' :: u) ≤ 0 := by
  obtain ⟨read, ⟨rest, rfl⟩, hcloses⟩ := exists_closesAtLast_of_not_unclosed h
  have htext : (collectCall ('(' :: t) (read ++ rest)).text =
      join [' '] ((('(' :: t) :: read).map trim) := by
    rw [collectCall_append hcloses]
  obtain ⟨u, hu⟩ : ∃ u, join [' '] ((('(' :: t) :: read).map trim) = '(' :: u := by
    obtain ⟨v, hv⟩ := exists_trim_cons (show isBlank '(' = false by decide) t
    rw [List.map_cons, hv]
    cases read with
    | nil => exact ⟨v, join_singleton _ _⟩
    | cons line read => exact ⟨_, join_cons_cons _ _ _ _⟩
  refine ⟨u, htext.trans hu, ?_⟩
  rw [← hu, parenDepth_join_trim, List.flatten_cons, parenDepth_append]
  exact hcloses.depth_le

/-- **The parenthesis of a call that the look-ahead closes has a match** in the text that it
collects. -/
theorem exists_matched_of_not_unclosed (h : ¬ Unclosed ('(' :: t) following) :
    ∃ u inside, (collectCall ('(' :: t) following).text = '(' :: u ∧ Matched u inside := by
  obtain ⟨u, htext, hdepth⟩ := exists_text_of_not_unclosed h
  rcases exists_matched_or_opened u with ⟨inside, hmatched⟩ | hopened
  · exact ⟨u, inside, htext, hmatched⟩
  · have := hopened u (List.prefix_refl u)
    rw [parenDepth_cons, if_pos rfl] at hdepth
    omega

/-- What is split into the parameters of a signature that the look-ahead closes. -/
theorem params_of_not_unclosed (h : ¬ Unclosed ('(' :: t) following) :
    ∃ u inside, (collectCall ('(' :: t) following).text = '(' :: u ∧ Matched u inside ∧
      (readSignature ('(' :: t) following).1.params = arguments inside := by
  obtain ⟨u, inside, htext, hmatched⟩ := exists_matched_of_not_unclosed h
  have hclosed := closed_collectCall_iff.2 h
  refine ⟨u, inside, htext, hmatched, ?_⟩
  rw [readSignature, if_pos hclosed, htext, ← argumentText_of_matched hmatched]
  rfl

/-- What is split into the parameters of a signature that is never closed. -/
theorem params_of_unclosed (h : Unclosed ('(' :: t) following) :
    (readSignature ('(' :: t) following).1.params = arguments (argumentText t) := by
  rw [readSignature_of_unclosed h]
  rfl

end Indented

open Text

/-- **The text that is split into arguments is the one between the parentheses, but for a
parenthesis at the end of an unmatched text.** Behind an opening parenthesis, it is the enclosed
text exactly if there is a match or the text does not end with a closing parenthesis; otherwise it
is the enclosed text without that parenthesis. The parameters of a signature are read from what the
match encloses in the lines that the look-ahead collects, if it gets closed, and else from the text
behind the parenthesis on the header line; the target of a model field is read from the text behind
its parenthesis. -/
theorem argumentText_enclosed (t : Text) (following : List Text) (name kind : Text) :
    (Enclosed t (argumentText t) ↔ ¬ (Unmatched t ∧ endsWithChar ')' t = true)) ∧
      (Unmatched t → endsWithChar ')' t = true → Enclosed t (argumentText t ++ [')'])) ∧
      (¬ Indented.Unclosed ('(' :: t) following →
        ∃ u inside, (Indented.collectCall ('(' :: t) following).text = '(' :: u ∧ Matched u inside ∧
          (Indented.readSignature ('(' :: t) following).1.params = arguments inside) ∧
      (Indented.Unclosed ('(' :: t) following →
        (Indented.readSignature ('(' :: t) following).1.params = arguments (argumentText t)) ∧
      (Schema.modelColumn name kind t).foreign =
        if Schema.relationFields.contains kind then Schema.relationTarget? (argumentText t)
        else none := by
  refine ⟨enclosed_argumentText_iff, fun hu hends => ?_, Indented.params_of_not_unclosed,
    Indented.params_of_unclosed, rfl⟩
  rw [argumentText_concat hu hends]
  exact .unmatched hu

/-- A signature that closes on the second line, and one that ends with a parenthesis and is never
closed. -/
theorem argumentText_enclosed_samples :
    ¬ Indented.Unclosed "(a=(1,".toList ["2), b):".toList] ∧
      (∃ u inside, (Indented.collectCall "(a=(1,".toList ["2), b):".toList]).text = '(' :: u ∧
        Matched u inside ∧
          (Indented.readSignature "(a=(1,".toList ["2), b):".toList]).1.params = arguments inside) ∧
      Indented.Unclosed "(a, b=g(1)".toList [] ∧
      (Indented.readSignature "(a, b=g(1)".toList []).1.params =
        arguments (argumentText "a, b=g(1)".toList) ∧
      Unmatched "a, b=g(1)".toList ∧ endsWithChar ')' "a, b=g(1)".toList = true ∧
      Enclosed "a, b=g(1)".toList (argumentText "a, b=g(1)".toList ++ [')']) := by
  have hcloses : ¬ Indented.Unclosed "(a=(1,".toList ["2), b):".toList] := fun h =>
    absurd (h _ (List.prefix_refl _)) (by decide)
  have hnever : Indented.Unclosed "(a, b=g(1)".toList [] := fun read hread => by
    rw [List.prefix_nil.1 hread]
    decide
  have hunmatched : Unmatched "a, b=g(1)".toList := by decide
  obtain ⟨-, -, hclosed, -⟩ := argumentText_enclosed "a=(1,".toList ["2), b):".toList] [] []
  obtain ⟨-, hlost, -, hunclosed, -⟩ := argumentText_enclosed "a, b=g(1)".toList [] [] []
  exact ⟨hcloses, hclosed hcloses, hnever, hunclosed hnever, hunmatched, by decide,
    hlost hunmatched (by decide)⟩

/-- The last parenthesis of a signature that is never closed is lost. -/
theorem argumentText_unclosed_call :
    Enclosed "a, b=g(1)".toList "a, b=g(1)".toList ∧
      ¬ Enclosed "a, b=g(1)".toList (argumentText "a, b=g(1)".toList) ∧
      arguments "a, b=g(1)".toList = ["a".toList, "b=g(1)".toList] ∧
      (Indented.declarations {} "def f(a, b=g(1)\n    pass\n".toList).functions.map (·.params) =
        [["a".toList, "b=g(1".toList]] := by
  have hunmatched : Unmatched "a, b=g(1)".toList := by decide
  refine ⟨.unmatched hunmatched, fun h => ?_, by decide, by decide +kernel⟩
  exact enclosed_argumentText_iff.1 h ⟨hunmatched, by decide⟩

end CodeIndex
