import CodeIndex.Json.Parser
import CodeIndex.Json.Printer
import Mathlib.Data.List.Basic
import Mathlib.Data.List.TakeDrop
import Mathlib.Tactic.IntervalCases

/-!
# Reading back a rendered document

`render` and `parse?` are written apart from each other; this file shows that the second undoes the
first on every document whose numbers are integers (`Exact`), and that the rendered text is ASCII.

* A string: each character's escape is read as that character (`stringBody?_escapeChar`), whether it
  stands for itself, has a letter of its own, or is one or two 16-bit units in hexadecimal digits.
* A number: the digits of an integer end where the text does, or at the comma or the line end that
  follows every value (`EndsValue`), and have the integer as their value (`number?_ofInt`).
* A list or an object: `Exact.readsBack` goes over the nesting, `items?_renderItems` and
  `fields?_renderFields` over the parts of one level. The length of the rendered text is fuel
  enough.
-/

namespace CodeIndex.Json

/-! ## Gaps -/

theorem skipGap_cons {c : Char} (h : isGap c = false) (t : Text) : skipGap (c :: t) = c :: t := by
  simp [skipGap, h]

@[simp] theorem skipGap_newLine (level : Nat) (t : Text) :
    skipGap (newLine level ++ t) = skipGap t := by
  have blanks (n : Nat) : skipGap (List.replicate n ' ' ++ t) = skipGap t := by
    induction n with
    | zero => rfl
    | succ n ih => simpa [List.replicate_succ, skipGap, isGap] using ih
  simpa [newLine, skipGap, isGap] using blanks (2 * level)

theorem value?_congr {t u : Text} (h : skipGap t = skipGap u) (fuel : Nat) :
    value? fuel t = value? fuel u := by
  cases fuel with
  | zero => rfl
  | succ fuel => simp only [value?, h]

theorem items?_congr {t u : Text} (h : skipGap t = skipGap u) (fuel : Nat) :
    items? fuel t = items? fuel u := by
  cases fuel with
  | zero => rfl
  | succ fuel => simp only [items?, value?_congr h]

theorem fields?_congr {t u : Text} (h : skipGap t = skipGap u) (fuel : Nat) :
    fields? fuel t = fields? fuel u := by
  cases fuel with
  | zero => rfl
  | succ fuel => simp only [fields?, h]

/-! ## Strings -/

theorem hexValue?_hexDigit {k : Nat} (h : k < 16) : Text.hexValue? (hexDigit k) = some k := by
  interval_cases k <;> rfl

theorem unit?_escapeUnit {n : Nat} (h : n < 0x10000) :
    unit? (hexDigit (n / 4096 % 16)) (hexDigit (n / 256 % 16)) (hexDigit (n / 16 % 16))
      (hexDigit (n % 16)) = some n := by
  have digit (k : Nat) : Text.hexValue? (hexDigit (k % 16)) = some (k % 16) :=
    hexValue?_hexDigit (Nat.mod_lt _ (by decide))
  simp only [unit?, digit, Option.bind_eq_bind, Option.bind_some, Option.pure_def,
    Option.some.injEq]
  omega

/-- A character is no surrogate, and two surrogates can write every one beyond sixteen bits. -/
theorem toNat_cases (c : Char) : c.toNat < 0xD800 ∨ (0xE000 ≤ c.toNat ∧ c.toNat < 0x110000) := by
  have hv := c.valid
  simp only [UInt32.isValidChar, Nat.isValidChar] at hv
  simp only [Char.toNat]
  omega

theorem single?_toNat (c : Char) : single? c.toNat = some c := by
  have hc := toNat_cases c
  simp only [single?, Char.ofNat_toNat]
  rw [if_neg (by omega)]

theorem pair?_toNat {c : Char} (h : 0x10000 ≤ c.toNat) :
    pair? (0xD800 + (c.toNat - 0x10000) / 1024) (0xDC00 + (c.toNat - 0x10000) % 1024) = some c := by
  have hc := toNat_cases c
  have sum : 0x10000 + (0xD800 + (c.toNat - 0x10000) / 1024 - 0xD800) * 1024
      + (0xDC00 + (c.toNat - 0x10000) % 1024 - 0xDC00) = c.toNat := by omega
  rw [pair?, if_pos (by omega), sum, Char.ofNat_toNat]

theorem stringBody?_escapeUnit {n : Nat} (h : n < 0x10000) {c : Char} (hc : single? n = some c)
    (seen t : Text) : stringBody? seen (escapeUnit n ++ t) = stringBody? (c :: seen) t := by
  simp [escapeUnit, stringBody?, unit?_escapeUnit h, hc]

theorem stringBody?_escapePair {high low : Nat} (hh : 0xD800 ≤ high ∧ high < 0xDC00)
    (hl : low < 0x10000) {c : Char} (hc : pair? high low = some c) (seen t : Text) :
    stringBody? seen (escapeUnit high ++ escapeUnit low ++ t) = stringBody? (c :: seen) t := by
  have hs : single? high = none := by rw [single?, if_pos (by omega)]
  simp [escapeUnit, stringBody?, unit?_escapeUnit (show high < 0x10000 by omega),
    unit?_escapeUnit hl, hs, hc]

theorem stringBody?_plain {c : Char} (hquote : c ≠ '"') (hslash : c ≠ '\\') (hc : 32 ≤ c.toNat)
    (seen t : Text) : stringBody? seen (c :: t) = stringBody? (c :: seen) t := by
  rw [stringBody?, if_neg (Nat.not_lt.2 hc)] <;> simp_all

theorem stringBody?_letter {e c : Char} (he : letterEscape? e = some c) (seen t : Text) :
    stringBody? seen ('\\' :: e :: t) = stringBody? (c :: seen) t := by
  have hu : e ≠ 'u' := by
    rintro rfl
    cases he
  rw [stringBody?]
  · simp only [he]
  · rintro a b c d t rfl
    contradiction

/-- How a character is written: with a letter, as it is, or as one or two units. -/
theorem escapeChar_cases (c : Char) :
    (∃ e, letterEscape? e = some c ∧ e.toNat < 128 ∧ escapeChar c = ['\\', e]) ∨
    (c ≠ '"' ∧ c ≠ '\\' ∧ 32 ≤ c.toNat ∧ c.toNat < 127 ∧ escapeChar c = [c]) ∨
    (c.toNat < 0x10000 ∧ escapeChar c = escapeUnit c.toNat) ∨
    (0x10000 ≤ c.toNat ∧ escapeChar c = escapeUnit (0xD800 + (c.toNat - 0x10000) / 1024) ++
      escapeUnit (0xDC00 + (c.toNat - 0x10000) % 1024)) := by
  by_cases hletter : c = '"' ∨ c = '\\' ∨ c = '\n' ∨ c = '\r' ∨ c = '\t' ∨ c = '\x08' ∨ c = '\x0c'
  · left
    rcases hletter with rfl | rfl | rfl | rfl | rfl | rfl | rfl
    · exact ⟨'"', rfl, by decide, rfl⟩
    · exact ⟨'\\', rfl, by decide, rfl⟩
    · exact ⟨'n', rfl, by decide, rfl⟩
    · exact ⟨'r', rfl, by decide, rfl⟩
    · exact ⟨'t', rfl, by decide, rfl⟩
    · exact ⟨'b', rfl, by decide, rfl⟩
    · exact ⟨'f', rfl, by decide, rfl⟩
  · simp only [not_or] at hletter
    by_cases hplain : 32 ≤ c.toNat ∧ c.toNat < 127
    · exact .inr (.inl ⟨hletter.1, hletter.2.1, hplain.1, hplain.2,
        by simp [escapeChar, hletter, hplain]⟩)
    · by_cases hunit : c.toNat < 0x10000
      · exact .inr (.inr (.inl ⟨hunit, by simp [escapeChar, hletter, hplain, hunit]⟩))
      · exact .inr (.inr (.inr ⟨Nat.le_of_not_lt hunit,
          by simp [escapeChar, hletter, hplain, hunit]⟩))

/-- An escaped character is read as itself. -/
theorem stringBody?_escapeChar (c : Char) (seen t : Text) :
    stringBody? seen (escapeChar c ++ t) = stringBody? (c :: seen) t := by
  have hc := toNat_cases c
  obtain ⟨e, he, -, hescape⟩ | ⟨hquote, hslash, hplain, -, hescape⟩ | ⟨hunit, hescape⟩ |
    ⟨hpair, hescape⟩ := escapeChar_cases c
  · rw [hescape]
    exact stringBody?_letter he seen t
  · rw [hescape]
    exact stringBody?_plain hquote hslash hplain seen t
  · rw [hescape]
    exact stringBody?_escapeUnit hunit (single?_toNat c) seen t
  · rw [hescape]
    exact stringBody?_escapePair (by omega) (by omega) (pair?_toNat hpair) seen t

theorem string?_quote (s t : Text) : string? (quote s ++ t) = some (s, t) := by
  have body (seen : Text) :
      stringBody? seen (s.flatMap escapeChar ++ '"' :: t) = some (seen.reverse ++ s, t) := by
    induction s generalizing seen with
    | nil => simp [stringBody?]
    | cons c s ih => simp [stringBody?_escapeChar, ih]
  simpa [quote, string?] using body []

/-- A character beyond sixteen bits is two escapes. -/
example : quote ['a', Char.ofNat 0x1F600] = "\"a\\ud83d\\ude00\"".toList := by decide

theorem skipGap_quote (s t : Text) : skipGap (quote s ++ t) = quote s ++ t :=
  skipGap_cons rfl _

/-! ## Numbers -/

/-- What follows a rendered value: nothing, a comma or a line end. -/
def EndsValue (rest : Text) : Prop := ∀ c ∈ rest.head?, c = ',' ∨ c = '\n'

theorem endsValue_newLine (level : Nat) (t : Text) : EndsValue (newLine level ++ t) := by
  simp [EndsValue, newLine]

theorem digits_ofNat (n : Nat) : ∀ c ∈ Text.ofNat n, c.isDigit = true := fun _ hc =>
  Nat.isDigit_of_mem_toDigits (by decide) (by decide) hc

/-- A positive number is written without leading zeros. -/
theorem head?_ofNat_ne_zero {n : Nat} (h : 0 < n) : (Text.ofNat n).head? ≠ some '0' := by
  induction n using Nat.strongRecOn with
  | ind n ih =>
    rw [Text.ofNat, Nat.toDigits_eq_if (by decide)]
    split
    case isTrue hn => interval_cases n <;> decide
    case isFalse hn =>
      rw [List.head?_append_of_ne_nil _ Nat.toDigits_ne_nil]
      exact ih (n / 10) (by omega) (by omega)

theorem ofNat_canonical (n : Nat) :
    ¬ (Text.ofNat n = [] ∨ ((Text.ofNat n).head? = some '0' ∧ (Text.ofNat n).length > 1)) := by
  rintro (hnil | ⟨hhead, hlength⟩)
  · exact Nat.toDigits_ne_nil hnil
  · rcases Nat.eq_zero_or_pos n with rfl | hn
    · simp [Text.ofNat] at hlength
    · exact head?_ofNat_ne_zero hn hhead

theorem span_digits {digits rest : Text} (hd : ∀ c ∈ digits, c.isDigit = true)
    (hr : EndsValue rest) : (digits ++ rest).span Char.isDigit = (digits, rest) := by
  have stop : rest.takeWhile Char.isDigit = [] ∧ rest.dropWhile Char.isDigit = rest := by
    cases rest with
    | nil => exact ⟨rfl, rfl⟩
    | cons c t =>
      have hc : c.isDigit = false := by
        rcases hr c rfl with rfl | rfl <;> rfl
      simp [hc]
  simp [List.span_eq_takeWhile_dropWhile, List.takeWhile_append_of_pos hd,
    List.dropWhile_append_of_pos hd, stop]

/-- No point and no exponent follow the digits of a rendered number. -/
theorem fraction_endsValue {rest : Text} (hr : EndsValue rest) : fraction rest = ([], rest) := by
  rcases rest with - | ⟨c, t⟩
  · rfl
  · rcases hr c rfl with rfl | rfl <;> rfl

theorem exponent?_endsValue {rest : Text} (hr : EndsValue rest) : exponent? rest = none := by
  rcases rest with - | ⟨c, t⟩
  · rfl
  · rcases hr c rfl with rfl | rfl <;> rfl

theorem exists_ofNat_cons (n : Nat) : ∃ c ds, Text.ofNat n = c :: ds ∧ c.isDigit = true := by
  have hne : Text.ofNat n ≠ [] := Nat.toDigits_ne_nil
  obtain ⟨c, ds, hds⟩ := List.exists_cons_of_ne_nil hne
  exact ⟨c, ds, hds, digits_ofNat n c (by simp [hds])⟩

theorem exists_ofInt_cons (n : Int) :
    ∃ c t, Text.ofInt n = c :: t ∧ (c = '-' ∨ c.isDigit = true) := by
  cases n with
  | ofNat k =>
    obtain ⟨c, ds, hds, hc⟩ := exists_ofNat_cons k
    exact ⟨c, ds, hds, .inr hc⟩
  | negSucc k => exact ⟨'-', _, rfl, .inl rfl⟩

theorem number?_ofInt (n : Int) {rest : Text} (hr : EndsValue rest) :
    number? (Text.ofInt n ++ rest) = some (.int n, rest) := by
  have hspan (k : Nat) := span_digits (digits_ofNat k) hr
  have hvalue (k : Nat) : Decimal.digitsValue 0 (Text.ofNat k) = k := Nat.ofDigitChars_ten_toDigits
  cases n with
  | ofNat k =>
    -- No minus sign: what settles the match on the sign.
    have hsign : ∀ t, Text.ofNat k ++ rest ≠ '-' :: t := by
      obtain ⟨c, ds, hds, hc⟩ := exists_ofNat_cons k
      rintro t ht
      rw [hds, List.cons_append, List.cons.injEq] at ht
      exact absurd (ht.1 ▸ hc) (by decide)
    simp only [Text.ofInt, number?, hspan, if_neg (ofNat_canonical k),
      fraction_endsValue hr, exponent?_endsValue hr, hvalue]
    rfl
  | negSucc k =>
    simp only [Text.ofInt, number?, List.cons_append, hspan, if_neg (ofNat_canonical (k + 1)),
      fraction_endsValue hr, exponent?_endsValue hr, hvalue]
    rfl

theorem isGap_of_number {c : Char} (h : c = '-' ∨ c.isDigit = true) : isGap c = false := by
  simp only [isGap, Bool.or_eq_false_iff, decide_eq_false_iff_not]
  refine ⟨⟨⟨?_, ?_⟩, ?_⟩, ?_⟩ <;> rintro rfl <;> simp at h

theorem value?_number {c : Char} (h : c = '-' ∨ c.isDigit = true) (fuel : Nat) (t : Text) :
    value? (fuel + 1) (c :: t) = number? (c :: t) := by
  rw [value?, skipGap_cons (isGap_of_number h)]
  split <;> simp_all

/-! ## Documents -/

/-- A document all of whose numbers are integers. -/
inductive Exact : Json → Prop
  | null : Exact .null
  | bool (b : Bool) : Exact (.bool b)
  | int (n : Int) : Exact (.int n)
  | str (s : Text) : Exact (.str s)
  | arr {items : List Json} (h : ∀ j ∈ items, Exact j) : Exact (.arr items)
  | obj {fields : List (Text × Json)} (h : ∀ f ∈ fields, Exact f.2) : Exact (.obj fields)

/-- The rendered document is read as the document at the head of every text that goes on with what
can follow a value, with any fuel above its length. -/
def ReadsBack (j : Json) : Prop :=
  ∀ level fuel rest, (renderAt level j).length < fuel → EndsValue rest →
    value? fuel (renderAt level j ++ rest) = some (j, rest)

theorem endsValue_renderItems (level : Nat) (js : List Json) (t : Text) :
    EndsValue (renderItems level js ++ (newLine level ++ t)) := by
  cases js with
  | nil => exact endsValue_newLine level t
  | cons j js => simp [renderItems, EndsValue]

theorem endsValue_renderFields (level : Nat) (fields : List (Text × Json)) (t : Text) :
    EndsValue (renderFields level fields ++ (newLine level ++ t)) := by
  cases fields with
  | nil => exact endsValue_newLine level t
  | cons f fields => simp [renderFields, EndsValue]

theorem items?_renderItems {j : Json} {js : List Json} (hj : ReadsBack j)
    (hjs : ∀ j ∈ js, ReadsBack j) {level fuel : Nat} (rest : Text)
    (hf : (renderAt (level + 1) j).length + (renderItems level js).length + 1 < fuel) :
    items? fuel (renderAt (level + 1) j ++ (renderItems level js ++ (newLine level ++ ']' :: rest)))
      = some (j :: js, rest) := by
  induction js generalizing j fuel with
  | nil =>
    obtain ⟨fuel, rfl⟩ : ∃ n, fuel = n + 1 := ⟨fuel - 1, by omega⟩
    have first := hj (level + 1) fuel _ (by omega) (endsValue_renderItems level [] (']' :: rest))
    have close :
        skipGap (renderItems level [] ++ (newLine level ++ ']' :: rest)) = ']' :: rest := by
      rw [renderItems, List.nil_append, skipGap_newLine, skipGap_cons rfl]
    simp only [items?, first, close]
  | cons k js ih =>
    obtain ⟨fuel, rfl⟩ : ∃ n, fuel = n + 1 := ⟨fuel - 1, by omega⟩
    have first :=
      hj (level + 1) fuel _ (by omega) (endsValue_renderItems level (k :: js) (']' :: rest))
    have more : skipGap (renderItems level (k :: js) ++ (newLine level ++ ']' :: rest)) =
        ',' :: (newLine (level + 1) ++
          (renderAt (level + 1) k ++
            (renderItems level js ++ (newLine level ++ ']' :: rest)))) := by
      simp only [renderItems, List.cons_append, List.append_assoc,
        skipGap_cons (show isGap ',' = false from rfl)]
    simp only [renderItems, List.length_cons, List.length_append] at hf
    have left : (renderAt (level + 1) k).length + (renderItems level js).length + 1 < fuel := by
      omega
    obtain ⟨hk, hjs⟩ := List.forall_mem_cons.1 hjs
    have others := ih hk hjs left
    simp only [items?, first, more, items?_congr (skipGap_newLine _ _), others, Option.map_some]

theorem fields?_renderFields {k : Text} {j : Json} {fields : List (Text × Json)} (hj : ReadsBack j)
    (hfields : ∀ f ∈ fields, ReadsBack f.2) {level fuel : Nat} (rest : Text)
    (hf : (renderAt (level + 1) j).length + (renderFields level fields).length + 1 < fuel) :
    fields? fuel (quote k ++ (": ".toList ++ (renderAt (level + 1) j
        ++ (renderFields level fields ++ (newLine level ++ '\x7d' :: rest)))))
      = some ((k, j) :: fields, rest) := by
  have colon (t : Text) : skipGap (": ".toList ++ t) = ':' :: ' ' :: t := rfl
  have blank (t : Text) : skipGap (' ' :: t) = skipGap t := rfl
  induction fields generalizing k j fuel with
  | nil =>
    obtain ⟨fuel, rfl⟩ : ∃ n, fuel = n + 1 := ⟨fuel - 1, by omega⟩
    have first :=
      hj (level + 1) fuel _ (by omega) (endsValue_renderFields level [] ('\x7d' :: rest))
    have close :
        skipGap (renderFields level [] ++ (newLine level ++ '\x7d' :: rest)) = '\x7d' :: rest := by
      rw [renderFields, List.nil_append, skipGap_newLine, skipGap_cons rfl]
    simp only [fields?, skipGap_quote, string?_quote, colon, value?_congr (blank _), first, close]
  | cons f fields ih =>
    obtain ⟨fuel, rfl⟩ : ∃ n, fuel = n + 1 := ⟨fuel - 1, by omega⟩
    have first := hj (level + 1) fuel _ (by omega)
      (endsValue_renderFields level (f :: fields) ('\x7d' :: rest))
    have more : skipGap (renderFields level (f :: fields) ++ (newLine level ++ '\x7d' :: rest))
        = ',' :: (newLine (level + 1) ++ (quote f.1 ++ (": ".toList ++ (renderAt (level + 1) f.2
          ++ (renderFields level fields ++ (newLine level ++ '\x7d' :: rest)))))) := by
      simp only [renderFields, List.cons_append, List.append_assoc,
        skipGap_cons (show isGap ',' = false from rfl)]
    simp only [renderFields, List.length_cons, List.length_append] at hf
    have left :
        (renderAt (level + 1) f.2).length + (renderFields level fields).length + 1 < fuel := by
      omega
    obtain ⟨hk, hfields⟩ := List.forall_mem_cons.1 hfields
    have others := ih (k := f.1) hk hfields left
    simp only [fields?, skipGap_quote, string?_quote, colon, value?_congr (blank _), first, more,
      fields?_congr (skipGap_newLine _ _), others, Option.map_some]

/-- A value starts with no gap and with no bracket that closes a list. -/
theorem exists_renderAt_cons {j : Json} (h : Exact j) (level : Nat) :
    ∃ c t, renderAt level j = c :: t ∧ isGap c = false ∧ c ≠ ']' := by
  cases h with
  | null => exact ⟨_, _, rfl, rfl, by decide⟩
  | bool b => cases b <;> exact ⟨_, _, rfl, rfl, by decide⟩
  | int n =>
    obtain ⟨c, t, ht, hc⟩ := exists_ofInt_cons n
    refine ⟨c, t, ht, isGap_of_number hc, ?_⟩
    rintro rfl
    simp at hc
  | str s => exact ⟨_, _, rfl, rfl, by decide⟩
  | @arr items => cases items <;> exact ⟨_, _, rfl, rfl, by decide⟩
  | @obj fields => cases fields <;> exact ⟨_, _, rfl, rfl, by decide⟩

theorem value?_bracket {t u : Text} {c : Char} (h : skipGap t = c :: u) (hc : c ≠ ']')
    (fuel : Nat) :
    value? (fuel + 1) ('[' :: t) = (items? fuel (c :: u)).map fun (js, t) => (arr js, t) := by
  simp only [value?, skipGap_cons (show isGap '[' = false from rfl), h]
  split <;> simp_all

theorem value?_brace {t u : Text} {c : Char} (h : skipGap t = c :: u) (hc : c ≠ '\x7d')
    (fuel : Nat) :
    value? (fuel + 1) ('\x7b' :: t) = (fields? fuel (c :: u)).map fun (fs, t) => (obj fs, t) := by
  simp only [value?, skipGap_cons (show isGap '\x7b' = false from rfl), h]
  split <;> simp_all

/-- **A rendered document is read back.** -/
theorem Exact.readsBack {j : Json} (h : Exact j) : ReadsBack j := by
  induction h with
  | null =>
    rintro level (- | fuel) rest hf hr
    · contradiction
    · rfl
  | bool b =>
    rintro level (- | fuel) rest hf hr
    · contradiction
    · cases b <;> rfl
  | int n =>
    rintro level (- | fuel) rest hf hr
    · contradiction
    · obtain ⟨c, t, ht, hc⟩ := exists_ofInt_cons n
      rw [renderAt, ← number?_ofInt n hr, ht, List.cons_append, value?_number hc]
  | str s =>
    rintro level (- | fuel) rest hf hr
    · contradiction
    · have body := string?_quote s rest
      simp only [renderAt, value?, skipGap_quote]
      simp only [quote, List.cons_append] at body ⊢
      rw [body, Option.map_some]
  | @arr items h ih =>
    rintro level (- | fuel) rest hf hr
    · contradiction
    cases items with
    | nil => rfl
    | cons j js =>
      obtain ⟨c, t, ht, hgap, hclose⟩ := exists_renderAt_cons (h j (by simp)) (level + 1)
      simp only [renderAt, newLine, List.length_cons, List.length_append] at hf
      have left : (renderAt (level + 1) j).length + (renderItems level js).length + 1 < fuel := by
        omega
      obtain ⟨hj, hjs⟩ := List.forall_mem_cons.1 ih
      have parts := items?_renderItems hj hjs rest left
      simp only [renderAt, List.cons_append, List.append_assoc, List.nil_append]
      rw [ht, List.cons_append] at parts ⊢
      rw [value?_bracket (by rw [skipGap_newLine, skipGap_cons hgap]) hclose, parts,
        Option.map_some]
  | @obj fields h ih =>
    rintro level (- | fuel) rest hf hr
    · contradiction
    cases fields with
    | nil => rfl
    | cons f fields =>
      simp only [renderAt, newLine, List.length_cons, List.length_append] at hf
      have left :
          (renderAt (level + 1) f.2).length + (renderFields level fields).length + 1 < fuel := by
        omega
      obtain ⟨hj, hfields⟩ := List.forall_mem_cons.1 ih
      have parts := fields?_renderFields (k := f.1) hj hfields rest left
      simp only [renderAt, List.cons_append, List.append_assoc, List.nil_append]
      simp only [quote, List.cons_append] at parts ⊢
      rw [value?_brace (by rw [skipGap_newLine, skipGap_cons rfl]) (by decide), parts,
        Option.map_some]

theorem parse?_render {j : Json} (h : Exact j) : parse? j.render = some j := by
  have whole : value? (j.render.length + 1) j.render = some (j, []) := by
    have := h.readsBack 0 (j.render.length + 1) [] (Nat.lt_succ_self _) (by simp [EndsValue])
    simpa [render] using this
  simp [parse?, whole, skipGap]

/-! ## ASCII -/

/-- Only ASCII characters. -/
def Ascii (t : Text) : Prop := ∀ c ∈ t, c.toNat < 128

@[simp] theorem ascii_nil : Ascii [] := by simp [Ascii]

@[simp] theorem ascii_cons {c : Char} {t : Text} : Ascii (c :: t) ↔ c.toNat < 128 ∧ Ascii t := by
  simp [Ascii]

@[simp] theorem ascii_append {t u : Text} : Ascii (t ++ u) ↔ Ascii t ∧ Ascii u := by
  simp [Ascii, or_imp, forall_and]

theorem ascii_escapeUnit (n : Nat) : Ascii (escapeUnit n) := by
  have digit (k : Nat) : (hexDigit (k % 16)).toNat < 128 := by
    have hk : k % 16 < 16 := Nat.mod_lt _ (by decide)
    generalize k % 16 = d at hk
    interval_cases d <;> decide
  simp [escapeUnit, digit]

theorem ascii_escapeChar (c : Char) : Ascii (escapeChar c) := by
  obtain ⟨e, -, he, hescape⟩ | ⟨-, -, -, hplain, hescape⟩ | ⟨-, hescape⟩ | ⟨-, hescape⟩ :=
    escapeChar_cases c
  · simp [hescape, he]
  · simp [hescape, Nat.lt_succ_of_lt hplain]
  · rw [hescape]
    exact ascii_escapeUnit _
  · rw [hescape]
    exact ascii_append.2 ⟨ascii_escapeUnit _, ascii_escapeUnit _⟩

theorem ascii_quote (s : Text) : Ascii (quote s) := by
  have body : Ascii (s.flatMap escapeChar) := by
    intro c hc
    obtain ⟨d, -, hd⟩ := List.mem_flatMap.1 hc
    exact ascii_escapeChar d c hd
  simp [quote, body]

theorem ascii_newLine (level : Nat) : Ascii (newLine level) := by
  simp [newLine, Ascii]

theorem ascii_ofNat (n : Nat) : Ascii (Text.ofNat n) := by
  intro c hc
  have := (Char.isDigit_iff_toNat.1 (digits_ofNat n c hc)).2
  exact Nat.lt_of_le_of_lt this (by decide)

theorem ascii_ofInt (n : Int) : Ascii (Text.ofInt n) := by
  cases n with
  | ofNat k => exact ascii_ofNat k
  | negSucc k => simp [Text.ofInt, ascii_ofNat]

theorem ascii_renderItems {js : List Json} (h : ∀ j ∈ js, ∀ level, Ascii (renderAt level j))
    (level : Nat) : Ascii (renderItems level js) := by
  induction js with
  | nil => simp [renderItems]
  | cons j js ih => simp_all [renderItems, ascii_newLine]

theorem ascii_renderFields {fields : List (Text × Json)}
    (h : ∀ f ∈ fields, ∀ level, Ascii (renderAt level f.2)) (level : Nat) :
    Ascii (renderFields level fields) := by
  induction fields with
  | nil => simp [renderFields]
  | cons f fields ih =>
    simp_all [renderFields, ascii_newLine, ascii_quote]

theorem Exact.ascii_renderAt {j : Json} (h : Exact j) (level : Nat) : Ascii (renderAt level j) := by
  induction h generalizing level with
  | null => simp [renderAt]
  | bool b => cases b <;> simp [renderAt]
  | int n => exact ascii_ofInt n
  | str s => exact ascii_quote s
  | @arr items h ih =>
    cases items with
    | nil => simp [renderAt]
    | cons j js =>
      obtain ⟨first, others⟩ := List.forall_mem_cons.1 ih
      simp [renderAt, ascii_newLine, first, ascii_renderItems others]
  | @obj fields h ih =>
    cases fields with
    | nil => simp [renderAt]
    | cons f fields =>
      obtain ⟨first, others⟩ := List.forall_mem_cons.1 ih
      simp [renderAt, ascii_newLine, ascii_quote, first, ascii_renderFields others]

end CodeIndex.Json
