import CodeIndex.Indented.Header
import CodeIndex.Proofs.Text.TripleQuote

/-!
# What the line recognisers recognise

Each recogniser of `CodeIndex.Indented.Header` on the lines it is meant for, and on lines meant for
another: a `def` header is no class header, and an attribute is no `def` header because its name is
followed by a character of no word (`defHeader?_eq_none`).
-/

namespace CodeIndex.Indented

open Text

/-! ## Indentation -/

theorem indentation_append {s : Text} (hs : ∀ c ∈ s, isBlank c = true) {c : Char}
    (hc : isBlank c = false) (t : Text) : indentation (s ++ c :: t) = s.length := by
  rw [indentation, trimLeft_append hs, trimLeft_cons hc, List.length_append]
  omega

theorem exists_cons_blank_of_indentation_pos {line : Text} (h : 0 < indentation line) :
    ∃ c t, line = c :: t ∧ isBlank c = true := by
  cases line with
  | nil => simp [indentation] at h
  | cons c t =>
    refine ⟨c, t, rfl, ?_⟩
    by_contra hc
    rw [Bool.not_eq_true] at hc
    simp [indentation, trimLeft_cons hc] at h

/-! ## Class headers -/

theorem classHeader?_eq_none_of_head {c : Char} (h : c ≠ 'c') (t : Text) :
    classHeader? (c :: t) = none := by
  have ha : after? "class".toList (c :: t) = none := after?_cons_ne (Ne.symm h) ..
  simp only [classHeader?, ha, Option.bind_eq_bind, Option.bind_none]

/-- A line with blanks before its text is no class header. -/
theorem classHeader?_eq_none_of_indentation {line : Text} (h : 0 < indentation line) :
    classHeader? line = none := by
  obtain ⟨c, t, rfl, hc⟩ := exists_cons_blank_of_indentation_pos h
  refine classHeader?_eq_none_of_head ?_ t
  rintro rfl
  exact absurd hc (by decide)

/-- The word before a parenthesis or a colon, perhaps with blanks between them. -/
theorem word?_append_blanks {name s : Text} (hne : name ≠ []) (hw : ∀ c ∈ name, isWord c = true)
    (hs : ∀ c ∈ s, isBlank c = true) {c : Char} (hc : isWord c = false) (rest : Text) :
    word? (name ++ (s ++ c :: rest)) = some (name, s ++ c :: rest) := by
  cases s with
  | nil => exact word?_append_cons hne hw hc rest
  | cons d s =>
    refine word?_append_cons hne hw ?_ _
    by_contra hd
    have := isBlank_of_isWord (Bool.not_eq_false _ ▸ hd)
    rw [hs d (by simp)] at this
    exact absurd this (by decide)

/-- **A class header is `class`, blanks, the name, and a parenthesis or a colon**, perhaps after
more blanks. -/
theorem classHeader?_eq_some_iff {line name : Text} :
    classHeader? line = some name ↔ ∃ s s' c rest,
      line = "class".toList ++ (s ++ (name ++ (s' ++ c :: rest))) ∧
      s ≠ [] ∧ (∀ c ∈ s, isBlank c = true) ∧ name ≠ [] ∧ (∀ c ∈ name, isWord c = true) ∧
      (∀ c ∈ s', isBlank c = true) ∧ (c = '(' ∨ c = ':') := by
  constructor
  · intro h
    simp only [classHeader?, Option.bind_eq_bind, Option.bind_eq_some_iff] at h
    obtain ⟨r₁, h₁, r₂, h₂, ⟨w, r₃⟩, h₃, h⟩ := h
    obtain ⟨s, hne, hs, rfl⟩ := exists_of_blanks1? h₂
    obtain ⟨hwne, hw, rfl⟩ := of_word? h₃
    obtain ⟨s', hs', hr₃⟩ := exists_blanks_append_trimLeft r₃
    cases hc : trimLeft r₃ with
    | nil => simp [hc] at h
    | cons c rest =>
      simp only [hc, Option.ite_none_right_eq_some, Option.some.injEq] at h
      obtain ⟨hc', rfl⟩ := h
      refine ⟨s, s', c, rest, ?_, hne, hs, hwne, hw, hs', hc'⟩
      rw [after?_eq_some_iff.1 h₁, ← hc, ← hr₃]
  · rintro ⟨s, s', c, rest, rfl, hne, hs, hwne, hw, hs', hc⟩
    have hword : isWord c = false := by rcases hc with rfl | rfl <;> decide
    have hblank : isBlank c = false := by rcases hc with rfl | rfl <;> decide
    simp only [classHeader?, after?_append, blanks1?_append hne hs, trimLeft_append_word hwne hw,
      word?_append_blanks hwne hw hs' hword, Option.bind_eq_bind, Option.bind_some,
      trimLeft_append hs', trimLeft_cons hblank, if_pos hc]

theorem classHeader?_class {name : Text} (hne : name ≠ []) (hw : ∀ c ∈ name, isWord c = true)
    {c : Char} (hc : c = '(' ∨ c = ':') (rest : Text) :
    classHeader? ("class ".toList ++ (name ++ c :: rest)) = some name :=
  classHeader?_eq_some_iff.2 ⟨[' '], [], c, rest, rfl, by decide, by decide, hne, hw, by decide, hc⟩

/-- What follows the header does not matter. -/
theorem classHeader?_append {line name : Text} (h : classHeader? line = some name) (u : Text) :
    classHeader? (line ++ u) = some name := by
  rw [classHeader?_eq_some_iff] at h ⊢
  obtain ⟨s, s', c, rest, rfl, h⟩ := h
  exact ⟨s, s', c, rest ++ u, by simp only [List.append_assoc, List.cons_append], h⟩

/-! ## Function headers -/

/-- **A function header is `def`, blanks, the name and a parenthesis**, perhaps after blanks and
`async`. -/
theorem defHeader?_eq_some_iff {line : Text} {h : DefHeader} :
    defHeader? line = some h ↔ ∃ s a s' s'' rest,
      line = s ++ (a ++ ("def".toList ++ (s' ++ (h.name ++ (s'' ++ '(' :: rest))))) ∧
      h.call = '(' :: rest ∧
      (if h.isAsync then ∃ b, a = "async".toList ++ b ∧ b ≠ [] ∧ ∀ c ∈ b, isBlank c = true
        else a = []) ∧
      (∀ c ∈ s, isBlank c = true) ∧ s' ≠ [] ∧ (∀ c ∈ s', isBlank c = true) ∧
      h.name ≠ [] ∧ (∀ c ∈ h.name, isWord c = true) ∧ (∀ c ∈ s'', isBlank c = true) := by
  constructor
  · intro hl
    simp only [defHeader?, Option.bind_eq_bind, Option.bind_eq_some_iff] at hl
    obtain ⟨r₁, h₁, r₂, h₂, ⟨w, r₃⟩, h₃, hl⟩ := hl
    obtain ⟨s', hne, hs', rfl⟩ := exists_of_blanks1? h₂
    obtain ⟨hwne, hw, rfl⟩ := of_word? h₃
    obtain ⟨s'', hs'', hr₃⟩ := exists_blanks_append_trimLeft r₃
    obtain ⟨s, hs, hline⟩ := exists_blanks_append_trimLeft line
    split at hl
    · next rest hc =>
      rw [Option.some.injEq] at hl
      subst hl
      rw [hc] at hr₃
      cases hplain : (after? "async".toList (trimLeft line)).bind blanks1? with
      | none =>
        rw [hplain, Option.getD_none, after?_eq_some_iff] at h₁
        refine ⟨s, [], s', s'', rest, ?_, rfl, rfl, hs, hne, hs', hwne, hw, hs''⟩
        rw [List.nil_append, ← hr₃, ← h₁, ← hline]
      | some start =>
        obtain ⟨r, hr, hstart⟩ := Option.bind_eq_some_iff.1 hplain
        obtain ⟨b, hbne, hb, rfl⟩ := exists_of_blanks1? hstart
        rw [hplain, Option.getD_some, after?_eq_some_iff] at h₁
        refine ⟨s, "async".toList ++ b, s', s'', rest, ?_, rfl, ⟨b, rfl, hbne, hb⟩, hs, hne, hs',
          hwne, hw, hs''⟩
        rw [List.append_assoc, ← hr₃, ← h₁, ← after?_eq_some_iff.1 hr, ← hline]
    · exact absurd hl (by simp)
  · obtain ⟨isAsync, name, call⟩ := h
    rintro ⟨s, a, s', s'', rest, rfl, hcall, ha, hs, hne, hs', hwne, hw, hs''⟩
    dsimp only at hcall ha hwne hw
    subst hcall
    set start : Text := "def".toList ++ (s' ++ (name ++ (s'' ++ '(' :: rest))) with hstart
    have hblank : trimLeft start = start := trimLeft_cons (by decide) _
    -- both forms read `start` after the optional keyword
    have hplain : ((after? "async".toList (trimLeft (a ++ start))).bind blanks1?).getD
          (trimLeft (a ++ start)) = start ∧
        ((after? "async".toList (trimLeft (a ++ start))).bind blanks1?).isSome = isAsync := by
      cases isAsync with
      | false =>
        obtain rfl : a = [] := ha
        have : after? "async".toList start = none := rfl
        simp only [List.nil_append, hblank, this, Option.bind_none, Option.getD_none,
          Option.isSome_none, and_self]
      | true =>
        obtain ⟨b, rfl, hbne, hb⟩ :
            ∃ b, a = "async".toList ++ b ∧ b ≠ [] ∧ ∀ c ∈ b, isBlank c = true := ha
        have : trimLeft ("async".toList ++ (b ++ start)) = "async".toList ++ (b ++ start) :=
          trimLeft_cons (by decide) _
        simp only [List.append_assoc, this, after?_append, Option.bind_some,
          blanks1?_append hbne hb, hblank, Option.getD_some, Option.isSome_some, and_self]
    simp only [defHeader?, trimLeft_append hs, hplain.1, hplain.2]
    simp only [hstart, after?_append, blanks1?_append hne hs', trimLeft_append_word hwne hw,
      word?_append_blanks hwne hw hs'' (show isWord '(' = false by decide), Option.bind_eq_bind,
      Option.bind_some, trimLeft_append hs'', trimLeft_cons (show isBlank '(' = false by decide)]

/-- The header of a function, whatever blanks stand before it. -/
theorem defHeader?_def {s name : Text} (hs : ∀ c ∈ s, isBlank c = true) (hne : name ≠ [])
    (hw : ∀ c ∈ name, isWord c = true) (isAsync : Bool) (call : Text) :
    defHeader? (s ++ ((if isAsync then "async ".toList else []) ++
      ("def ".toList ++ (name ++ '(' :: call)))) = some ⟨isAsync, name, '(' :: call⟩ := by
  refine defHeader?_eq_some_iff.2 ⟨s, if isAsync then "async ".toList else [], [' '], [], call,
    rfl, rfl, ?_, hs, by decide, by decide, hne, hw, by decide⟩
  cases isAsync with
  | false => rfl
  | true => exact ⟨[' '], rfl, by decide, by decide⟩

/-- What follows the header does not matter for its name and kind. -/
theorem defHeader?_append {line : Text} {h : DefHeader} (hl : defHeader? line = some h) (u : Text) :
    defHeader? (line ++ u) = some { h with call := h.call ++ u } := by
  rw [defHeader?_eq_some_iff] at hl ⊢
  obtain ⟨s, a, s', s'', rest, rfl, hcall, hl⟩ := hl
  refine ⟨s, a, s', s'', rest ++ u, ?_, ?_, hl⟩
  · simp only [List.append_assoc, List.cons_append]
  · simp only [hcall, List.cons_append]

/-- The first character of a function header is that of a keyword. -/
theorem exists_trimLeft_of_defHeader? {line : Text} {h : DefHeader}
    (hd : defHeader? line = some h) : ∃ c t, trimLeft line = c :: t ∧ (c = 'a' ∨ c = 'd') := by
  obtain ⟨s, a, s', s'', rest, rfl, -, ha, hs, -⟩ := defHeader?_eq_some_iff.1 hd
  rw [trimLeft_append hs]
  split at ha
  · obtain ⟨b, rfl, -⟩ := ha
    exact ⟨'a', _, trimLeft_cons (by decide) _, .inl rfl⟩
  · subst ha
    exact ⟨'d', _, trimLeft_cons (by decide) _, .inr rfl⟩

/-- The header of a function is no header of a class. -/
theorem classHeader?_eq_none_of_defHeader? {line : Text} {h : DefHeader}
    (hd : defHeader? line = some h) : classHeader? line = none := by
  obtain ⟨c, t, htrim, hc⟩ := exists_trimLeft_of_defHeader? hd
  by_contra hne
  obtain ⟨name, hname⟩ := Option.ne_none_iff_exists'.1 hne
  obtain ⟨_, _, _, _, rfl, -⟩ := classHeader?_eq_some_iff.1 hname
  have hclass : 'c' = c := by
    rw [show trimLeft ("class".toList ++ _) = "class".toList ++ _ from trimLeft_cons (by decide) _]
      at htrim
    exact (List.cons.inj htrim).1
  rcases hc with rfl | rfl <;> exact absurd hclass (by decide)

/-- What follows a keyword and blanks, when the first word of the text is followed by a character of
no word: that word is the keyword. -/
theorem eq_trimLeft_of_keyword {key name rest r : Text} (hkey : ∀ c ∈ key, isWord c = true)
    (hname : ∀ c ∈ name, isWord c = true) (hrest : ∀ c ∈ (trimLeft rest).head?, isWord c = false)
    (h : (after? key (name ++ rest)).bind blanks1? = some r) : r = trimLeft rest := by
  induction key generalizing name with
  | nil =>
    rw [after?, Option.bind_some] at h
    cases name with
    | nil =>
      cases rest with
      | nil => simp [blanks1?] at h
      | cons c rest =>
        rw [List.nil_append] at h
        cases hc : isBlank c with
        | false => simp [blanks1?_cons hc] at h
        | true =>
          rw [blanks1?_cons_blank hc, Option.some.injEq] at h
          rw [trimLeft_cons_blank hc, h]
    | cons c name =>
      rw [List.cons_append, blanks1?_cons (isBlank_of_isWord (hname c (by simp)))] at h
      exact absurd h (by simp)
  | cons a key ih =>
    cases name with
    | nil =>
      -- the keyword would have to start in `rest`, which no word character does
      have ha : isWord a = true := hkey a (by simp)
      cases rest with
      | nil => simp [after?] at h
      | cons c rest =>
        by_cases hac : a = c
        · subst hac
          rw [trimLeft_cons (isBlank_of_isWord ha)] at hrest
          rw [hrest a rfl] at ha
          exact absurd ha (by decide)
        · rw [List.nil_append, after?_cons_ne hac] at h
          exact absurd h (by simp)
    | cons c name =>
      by_cases hac : a = c
      · subst hac
        rw [List.cons_append, after?, if_pos rfl] at h
        exact ih (fun c hc => hkey c (by simp [hc])) (fun c hc => hname c (by simp [hc])) h
      · rw [List.cons_append, after?_cons_ne hac] at h
        exact absurd h (by simp)

/-- **A line whose first word is followed by a character of no word is no header of a function.** -/
theorem defHeader?_eq_none {s name rest : Text} (hs : ∀ c ∈ s, isBlank c = true)
    (hne : name ≠ []) (hname : ∀ c ∈ name, isWord c = true)
    (hrest : ∀ c ∈ (trimLeft rest).head?, isWord c = false) :
    defHeader? (s ++ (name ++ rest)) = none := by
  have keyword : ∀ {key r : Text}, (∀ c ∈ key, isWord c = true) →
      (after? key (name ++ rest)).bind blanks1? = some r → r = trimLeft rest :=
    fun hkey => eq_trimLeft_of_keyword hkey hname hrest
  have hword : word? (trimLeft rest) = none := word?_eq_none hrest
  rw [defHeader?, trimLeft_append hs, trimLeft_append_word hne hname]
  cases hplain : (after? "async".toList (name ++ rest)).bind blanks1? with
  | some r =>
    -- the word is `async`, and no `def` follows
    obtain rfl := keyword (by decide) hplain
    have hdef : after? "def".toList (trimLeft rest) = none := by
      rw [after?_eq_none_iff]
      rintro ⟨u, hu⟩
      exact absurd (hrest 'd' (by rw [← hu]; rfl)) (by decide)
    simp only [Option.getD_some, hdef, Option.bind_eq_bind, Option.bind_none]
  | none =>
    simp only [Option.getD_none, Option.bind_eq_bind]
    cases hdef : (after? "def".toList (name ++ rest)).bind blanks1? with
    | some r =>
      obtain rfl := keyword (by decide) hdef
      rw [← Option.bind_assoc, hdef]
      simp only [hword, Option.bind_some, Option.bind_none]
    | none =>
      rw [← Option.bind_assoc, hdef]
      rfl

/-! ## Attributes -/

/-- A namespace with the dot behind it, or nothing. -/
def IsQualifier (ns : Text) : Prop :=
  ns = [] ∨ ∃ w, w ≠ [] ∧ (∀ c ∈ w, isWord c = true) ∧ ns = w ++ ['.']

theorem IsQualifier.trimLeft_append {ns : Text} (h : IsQualifier ns) {c : Char}
    (hc : isBlank c = false) (t : Text) : trimLeft (ns ++ c :: t) = ns ++ c :: t := by
  obtain rfl | ⟨w, hne, hw, rfl⟩ := h
  · exact trimLeft_cons hc t
  · rw [List.append_assoc]
    exact trimLeft_append_word hne hw _

theorem exists_of_columnCall? {t call : Text} (h : columnCall? ["Column".toList] t = some call) :
    ∃ ns rest, t = ns ++ ("Column".toList ++ '(' :: rest) ∧ call = '(' :: rest ∧
      IsQualifier ns := by
  rw [columnCall?, List.findSome?_singleton] at h
  split at h
  · next rest ha =>
    obtain rfl := Option.some.inj h
    rw [after?_eq_some_iff] at ha
    split at ha
    · next w bare hw =>
      obtain ⟨hne, hword, rfl⟩ := of_word? hw
      exact ⟨w ++ ['.'], rest, by rw [ha, List.append_assoc]; rfl, rfl, .inr ⟨w, hne, hword, rfl⟩⟩
    · exact ⟨[], rest, ha, rfl, .inl rfl⟩
  · exact absurd h (by simp)

/-- **The call is read alike whatever other names may stand for it.** -/
theorem columnCall?_append {ns : Text} (h : IsQualifier ns) (names : List Text) (rest : Text) :
    columnCall? ("Column".toList :: names) (ns ++ ("Column".toList ++ '(' :: rest)) =
      some ('(' :: rest) := by
  obtain rfl | ⟨w, hne, hw, rfl⟩ := h
  · have hword : word? ("Column".toList ++ '(' :: rest) = some ("Column".toList, '(' :: rest) :=
      word?_append_cons (by decide) (by decide) (by decide) _
    rw [List.nil_append, columnCall?, hword]
    rfl
  · have hword : word? (w ++ ['.'] ++ ("Column".toList ++ '(' :: rest)) =
        some (w, '.' :: ("Column".toList ++ '(' :: rest)) := by
      rw [List.append_assoc]
      exact word?_append_cons hne hw (by decide) _
    rw [columnCall?, hword]
    rfl

/-- **A column attribute is blanks, the name, an equals sign and the call**, perhaps with blanks
around the sign and a namespace before the call. -/
theorem exists_of_columnAttribute? {line name call : Text}
    (h : columnAttribute? line = some (name, call)) :
    ∃ s s' s'' ns rest,
      line = s ++ (name ++ (s' ++ '=' :: (s'' ++ (ns ++ ("Column".toList ++ '(' :: rest))))) ∧
      call = '(' :: rest ∧ s ≠ [] ∧ (∀ c ∈ s, isBlank c = true) ∧ name ≠ [] ∧
      (∀ c ∈ name, isWord c = true) ∧ (∀ c ∈ s', isBlank c = true) ∧
      (∀ c ∈ s'', isBlank c = true) ∧ IsQualifier ns := by
  simp only [columnAttribute?, Option.bind_eq_bind, Option.bind_eq_some_iff] at h
  obtain ⟨r₁, h₁, ⟨w, r₂⟩, h₂, r₃, h₃, r₄, h₄, h⟩ := h
  obtain ⟨rfl, rfl⟩ := Prod.mk.inj (Option.some.inj h)
  obtain ⟨s, hne, hs, rfl⟩ := exists_of_blanks1? h₁
  obtain ⟨hwne, hw, rfl⟩ := of_word? h₂
  obtain ⟨s', hs', hr₂⟩ := exists_blanks_append_trimLeft r₂
  obtain ⟨s'', hs'', hr₃⟩ := exists_blanks_append_trimLeft r₃
  obtain ⟨ns, rest, hr₄, hcall, hns⟩ := exists_of_columnCall? h₄
  refine ⟨s, s', s'', ns, rest, ?_, hcall, hne, hs, hwne, hw, hs', hs'', hns⟩
  rw [← hr₄, ← hr₃, ← List.singleton_append, ← after?_eq_some_iff.1 h₃, ← hr₂]

/-- A column attribute is no header of a function. -/
theorem defHeader?_eq_none_of_columnAttribute? {line name call : Text}
    (h : columnAttribute? line = some (name, call)) : defHeader? line = none := by
  obtain ⟨s, s', s'', ns, rest, rfl, -, -, hs, hne, hw, hs', -⟩ := exists_of_columnAttribute? h
  refine defHeader?_eq_none hs hne hw fun c hc => ?_
  rw [trimLeft_append hs', trimLeft_cons (by decide), List.head?_cons, Option.mem_some_iff] at hc
  subst hc
  decide

section Attribute

variable {s name : Text} (hs : ∀ c ∈ s, isBlank c = true) (hs₀ : s ≠ []) (hne : name ≠ [])
  (hw : ∀ c ∈ name, isWord c = true)
include hs hs₀ hne hw

theorem blanks1?_append_word (u : Text) : blanks1? (s ++ (name ++ u)) = some (name ++ u) := by
  obtain ⟨c, s, rfl⟩ := List.exists_cons_of_ne_nil hs₀
  rw [List.cons_append, blanks1?_cons_blank (hs c (by simp)),
    trimLeft_append fun d hd => hs d (by simp [hd]), trimLeft_append_word hne hw]

theorem columnAttribute?_column (rest : Text) :
    columnAttribute? (s ++ (name ++ (" = Column(".toList ++ rest))) = some (name, '(' :: rest) := by
  have h₁ : word? (name ++ (" = Column(".toList ++ rest)) =
      some (name, " = Column(".toList ++ rest) :=
    word?_append_cons hne hw (by decide) _
  have h₂ : after? ['='] (trimLeft (" = Column(".toList ++ rest)) =
      some (" Column(".toList ++ rest) := rfl
  have h₃ : trimLeft (" Column(".toList ++ rest) = "Column".toList ++ '(' :: rest := rfl
  have h₄ : columnCall? ["Column".toList] ("Column".toList ++ '(' :: rest) = some ('(' :: rest) :=
    columnCall?_append (.inl rfl) [] rest
  simp only [columnAttribute?, blanks1?_append_word hs hs₀ hne hw, h₁, h₂, h₃, h₄,
    Option.bind_eq_bind, Option.bind_some, Option.pure_def]

/-- An attribute with a type is no column. -/
theorem columnAttribute?_typed (rest : Text) :
    columnAttribute? (s ++ (name ++ ':' :: rest)) = none := by
  have h₁ : after? ['='] (trimLeft (':' :: rest)) = none := rfl
  simp only [columnAttribute?, blanks1?_append_word hs hs₀ hne hw,
    word?_append_cons hne hw (show isWord ':' = false by decide), h₁, Option.bind_eq_bind,
    Option.bind_some, Option.bind_none]

theorem typedAttribute?_typed {c : Char} {t : Text} (ht : '=' ∉ c :: t) :
    typedAttribute? (s ++ (name ++ ':' :: c :: t)) = some (name, trim (c :: t)) := by
  have h₁ : after? [':'] (trimLeft (':' :: c :: t)) = some (c :: t) := by
    rw [trimLeft_cons (by decide)]
    rfl
  simp only [typedAttribute?, blanks1?_append_word hs hs₀ hne hw,
    word?_append_cons hne hw (show isWord ':' = false by decide), h₁, Option.bind_eq_bind,
    Option.bind_some, before_char_of_not_mem ht]

end Attribute

/-! ## Imports -/

/-- An import starts at the left margin. -/
theorem exists_cons_of_importLine? {line names : Text} {module? : Option Text}
    (h : importLine? line = some (module?, names)) :
    ∃ c t, line = c :: t ∧ (c = 'f' ∨ c = 'i') := by
  cases hfrom : after? "from".toList line with
  | some rest => exact ⟨'f', _, after?_eq_some_iff.1 hfrom, .inl rfl⟩
  | none =>
    cases himport : after? "import".toList line with
    | some rest => exact ⟨'i', _, after?_eq_some_iff.1 himport, .inr rfl⟩
    | none =>
      simp only [importLine?, hfrom, himport, Option.bind_none, Option.bind_eq_bind,
        Option.bind_some, reduceCtorEq] at h

/-! ## Strings after a header -/

/-- A line with a string is cut before it after a header, or not at all. -/
theorem splitHeaderString_of_cutDelimiter? {line head tail : Text} {q : Delimiter}
    (hcut : cutDelimiter? line = some (head, q, tail)) :
    splitHeaderString line = (line, []) ∨
      splitHeaderString line = (head, q.chars ++ tail) ∧
        ((classHeader? head).isSome = true ∨ (defHeader? head).isSome = true) := by
  unfold splitHeaderString
  rw [hcut]
  cases head with
  | nil => exact .inl rfl
  | cons c head =>
    dsimp only
    split
    · next h =>
      simp only [Bool.and_eq_true, Bool.or_eq_true] at h
      exact .inr ⟨rfl, h.2⟩
    · exact .inl rfl

/-- **A line that is cut before a string is cut after a header.** -/
theorem splitHeaderString_cases (line : Text) :
    splitHeaderString line = (line, []) ∨
      ∃ head tail, splitHeaderString line = (head, tail) ∧ line = head ++ tail ∧
        ((classHeader? head).isSome = true ∨ (defHeader? head).isSome = true) := by
  cases hcut : cutDelimiter? line with
  | none => exact .inl (by rw [splitHeaderString, hcut])
  | some cut =>
    obtain ⟨head, q, tail⟩ := cut
    obtain hsplit | ⟨hsplit, hheader⟩ := splitHeaderString_of_cutDelimiter? hcut
    · exact .inl hsplit
    · exact .inr ⟨head, q.chars ++ tail, hsplit, eq_of_cutDelimiter? hcut, hheader⟩

/-! ## Annotations -/

/-- The annotation between an arrow and the colon at the end of a header. -/
theorem returnAnnotation?_arrow {r : Text} (hne : r ≠ []) (ht : trim r = r) (hc : ':' ∉ r) :
    returnAnnotation? (" -> ".toList ++ (r ++ [':'])) = some r := by
  obtain ⟨c, r, rfl, hb⟩ := (Solid.of_trim ht hne).starts
  rw [List.cons_append]
  have h₁ : after? "->".toList (trimLeft (" -> ".toList ++ c :: (r ++ [':']))) =
      some (' ' :: c :: (r ++ [':'])) := rfl
  have h₂ : (' ' :: c :: (r ++ [':'])).span isBlank = ([' '], c :: (r ++ [':'])) := by
    have hspace : isBlank ' ' = true := by decide
    simp [List.span_eq_takeWhile_dropWhile, hspace, hb]
  have h₃ : cut? [':'] (r ++ [':']) = some (r, []) := cut?_char (fun h => hc (by simp [h])) []
  have h₄ : trimRight (c :: r) = c :: r := by rwa [trim_eq, trimLeft_cons hb] at ht
  simp only [returnAnnotation?, h₁, h₂, h₃, h₄, Option.bind_eq_bind, Option.bind_some]

end CodeIndex.Indented
