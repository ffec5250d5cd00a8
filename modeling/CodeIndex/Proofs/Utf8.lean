import CodeIndex.Utf8
import Mathlib.Tactic.Common

/-!
# Decoding

Where the text of some bytes, faults left out, is cut, the bytes can be cut too: each part of the
text is the text of one part of the bytes (`exists_append_of_decodeLenient`). The reason is that
`next` looks no further than at the bytes of a character (`next_char_append`), or at the byte after
a fault (`next_fault_append`).

A text is read back from its bytes (`decode_encode`, `decodeLenient_encode`), as `next` reads each
character from its own (`next_encodeChar`).
-/

namespace CodeIndex.Utf8

theorem next_char_append {bs rest : List UInt8} {c : Char} (h : next bs = .char c rest) :
    ∃ used, bs = used ++ rest ∧ ∀ u, next (used ++ u) = .char c u := by
  unfold next at h
  repeat' split at h
  all_goals simp only [Next.char.injEq, reduceCtorEq] at h
  all_goals obtain ⟨rfl, rfl⟩ := h
  · exact ⟨[_], rfl, fun u => by simp [next, *]⟩
  · exact ⟨[_, _], rfl, fun u => by simp [next, *]⟩
  · exact ⟨[_, _, _], rfl, fun u => by simp [next, *]⟩
  · exact ⟨[_, _, _, _], rfl, fun u => by simp [next, *]⟩

theorem next_fault_append {bs faulty rest : List UInt8} {reason : Reason}
    (h : next bs = .fault faulty reason rest) :
    bs = faulty ++ rest ∧
      ∀ b u, rest = b :: u → ∀ v, next (faulty ++ b :: v) = .fault faulty reason (b :: v) := by
  unfold next at h
  repeat' split at h
  all_goals simp only [Next.fault.injEq, reduceCtorEq] at h
  all_goals obtain ⟨rfl, rfl, rfl⟩ := h
  all_goals refine ⟨rfl, fun b u hrest v => ?_⟩
  -- where the bytes end too early there is no byte after the fault
  all_goals cases hrest
  all_goals simp [next, *]

/-! ## Lenient decoding -/

theorem decodeLenientFrom_of_done {seen : Text} {bs : List UInt8} (h : next bs = .done) :
    decodeLenientFrom seen bs = seen.reverse := by
  rw [decodeLenientFrom]
  split
  · rfl
  · next h' => simp [h] at h'
  · next h' => simp [h] at h'

theorem decodeLenientFrom_of_char {seen : Text} {bs rest : List UInt8} {c : Char}
    (h : next bs = .char c rest) :
    decodeLenientFrom seen bs = decodeLenientFrom (c :: seen) rest := by
  rw [decodeLenientFrom]
  split
  · next h' => simp [h] at h'
  · next c' rest' h' =>
    obtain ⟨rfl, rfl⟩ := Next.char.inj (h.symm.trans h')
    rfl
  · next h' => simp [h] at h'

theorem decodeLenientFrom_of_fault {seen : Text} {bs faulty rest : List UInt8} {reason : Reason}
    (h : next bs = .fault faulty reason rest) :
    decodeLenientFrom seen bs = decodeLenientFrom seen rest := by
  rw [decodeLenientFrom]
  split
  · next h' => simp [h] at h'
  · next h' => simp [h] at h'
  · next faulty' reason' rest' h' =>
    obtain ⟨-, -, rfl⟩ := Next.fault.inj (h.symm.trans h')
    rfl

/-- The text that was read before stays in front. -/
theorem decodeLenientFrom_append (seen seen' : Text) (bs : List UInt8) :
    decodeLenientFrom (seen ++ seen') bs = seen'.reverse ++ decodeLenientFrom seen bs := by
  fun_induction decodeLenientFrom seen bs with
  | case1 seen bs h => rw [decodeLenientFrom_of_done h, List.reverse_append]
  | case2 seen bs c rest h ih => rw [decodeLenientFrom_of_char h, ← ih, List.cons_append]
  | case3 seen bs faulty reason rest h ih => rw [decodeLenientFrom_of_fault h, ih]

theorem decodeLenient_nil : decodeLenient [] = [] := decodeLenientFrom_of_done rfl

theorem decodeLenient_of_char {bs rest : List UInt8} {c : Char} (h : next bs = .char c rest) :
    decodeLenient bs = c :: decodeLenient rest := by
  rw [decodeLenient, decodeLenientFrom_of_char h]
  exact decodeLenientFrom_append [] [c] rest

theorem decodeLenient_of_fault {bs faulty rest : List UInt8} {reason : Reason}
    (h : next bs = .fault faulty reason rest) : decodeLenient bs = decodeLenient rest :=
  decodeLenientFrom_of_fault h

/-- **Where the text of some bytes is cut, the bytes can be cut.** -/
theorem exists_append_of_decodeLenient {bs : List UInt8} {a b : Text}
    (h : decodeLenient bs = a ++ b) :
    ∃ x y, bs = x ++ y ∧ decodeLenient x = a ∧ decodeLenient y = b := by
  induction hn : bs.length using Nat.strongRecOn generalizing bs a with
  | ind n ih =>
    subst hn
    cases a with
    | nil => exact ⟨[], bs, rfl, decodeLenient_nil, h⟩
    | cons c a =>
      cases hnext : next bs with
      | done =>
        rw [decodeLenient, decodeLenientFrom_of_done hnext] at h
        simp at h
      | char c' rest =>
        rw [decodeLenient_of_char hnext, List.cons_append] at h
        obtain ⟨rfl, hrest⟩ := List.cons.inj h
        obtain ⟨x, y, rfl, rfl, rfl⟩ := ih _ (next_char_length hnext) hrest rfl
        obtain ⟨used, rfl, hused⟩ := next_char_append hnext
        exact ⟨used ++ x, y, by simp, decodeLenient_of_char (hused x), rfl⟩
      | fault faulty reason rest =>
        rw [decodeLenient_of_fault hnext] at h
        obtain ⟨x, y, rfl, hx, rfl⟩ := ih _ (next_fault_length hnext) h rfl
        obtain ⟨rfl, hfaulty⟩ := next_fault_append hnext
        -- the character behind the fault is in the first part, and with it the byte after the fault
        cases x with
        | nil => simp [decodeLenient_nil] at hx
        | cons b x =>
          refine ⟨faulty ++ b :: x, y, by simp, ?_, rfl⟩
          rw [decodeLenient_of_fault (hfaulty b (x ++ y) rfl x), hx]

/-! ## Reading back what was encoded -/

theorem isContinuation_iff {b : UInt8} :
    isContinuation b = true ↔ 0x80 ≤ b.toNat ∧ b.toNat ≤ 0xBF := by
  simp [isContinuation, UInt8.le_iff_toNat_le]

theorem isSecond_of_toNat {a b : UInt8} (hb : 0x80 ≤ b.toNat ∧ b.toNat ≤ 0xBF)
    (hE0 : a.toNat = 0xE0 → 0xA0 ≤ b.toNat) (hED : a.toNat = 0xED → b.toNat ≤ 0x9F)
    (hF0 : a.toNat = 0xF0 → 0x90 ≤ b.toNat) (hF4 : a.toNat = 0xF4 → b.toNat ≤ 0x8F) :
    isSecond a b = true := by
  unfold isSecond
  simp only [← UInt8.toNat_inj, UInt8.le_iff_toNat_le, UInt8.reduceToNat, isContinuation]
  split <;> simp_all

theorem next_one {a : UInt8} (ha : a.toNat < 0x80) (rest : List UInt8) :
    next (a :: rest) = .char (Char.ofNat a.toNat) rest :=
  if_pos (UInt8.lt_iff_toNat_lt.2 ha)

theorem next_two {a b : UInt8} (ha : 0xC2 ≤ a.toNat ∧ a.toNat < 0xE0)
    (hb : isContinuation b = true) (rest : List UInt8) :
    next (a :: b :: rest) = .char (Char.ofNat (push (a.toNat - 0xC0) b)) rest := by
  have hstart : ¬ a.toNat < 0x80 := by omega
  have hlow : ¬ a.toNat < 0xC2 := by omega
  have hhigh : ¬ 0xF4 < a.toNat := by omega
  simp [next, UInt8.lt_iff_toNat_lt, hstart, hlow, hhigh, ha.2, hb]

theorem next_three {a b c : UInt8} (ha : 0xE0 ≤ a.toNat ∧ a.toNat < 0xF0)
    (hb : isSecond a b = true) (hc : isContinuation c = true) (rest : List UInt8) :
    next (a :: b :: c :: rest) = .char (Char.ofNat (push (push (a.toNat - 0xE0) b) c)) rest := by
  have hstart : ¬ a.toNat < 0x80 := by omega
  have hlow : ¬ a.toNat < 0xC2 := by omega
  have hhigh : ¬ 0xF4 < a.toNat := by omega
  have hlead : ¬ a.toNat < 0xE0 := by omega
  simp [next, UInt8.lt_iff_toNat_lt, hstart, hlow, hhigh, hlead, ha.2, hb, hc]

theorem next_four {a b c d : UInt8} (ha : 0xF0 ≤ a.toNat ∧ a.toNat ≤ 0xF4)
    (hb : isSecond a b = true) (hc : isContinuation c = true) (hd : isContinuation d = true)
    (rest : List UInt8) :
    next (a :: b :: c :: d :: rest) =
      .char (Char.ofNat (push (push (push (a.toNat - 0xF0) b) c) d)) rest := by
  have hstart : ¬ a.toNat < 0x80 := by omega
  have hlow : ¬ a.toNat < 0xC2 := by omega
  have hhigh : ¬ 0xF4 < a.toNat := by omega
  have htwo : ¬ a.toNat < 0xE0 := by omega
  have hthree : ¬ a.toNat < 0xF0 := by omega
  simp [next, UInt8.lt_iff_toNat_lt, hstart, hlow, hhigh, htwo, hthree, hb, hc, hd]

theorem push_eq {n k : Nat} {b : UInt8} (hb : b.toNat = 0x80 + k) : push n b = n * 64 + k := by
  unfold push
  omega

/-- **A character is read from its bytes.** -/
theorem next_encodeChar (c : Char) (rest : List UInt8) :
    next (encodeChar c ++ rest) = .char c rest := by
  have hvalid : c.toNat < 0xD800 ∨ 0xDFFF < c.toNat ∧ c.toNat < 0x110000 := c.valid
  -- the bits of a continuation byte
  have hbits (k : Nat) : (UInt8.ofNat (0x80 + k % 64)).toNat = 0x80 + k % 64 :=
    UInt8.toNat_ofNat_of_lt' (by simp only [UInt8.size]; omega)
  have hcont (k : Nat) : isContinuation (UInt8.ofNat (0x80 + k % 64)) = true := by
    rw [isContinuation_iff, hbits]
    omega
  have hchar {n : Nat} (h : n = c.toNat) : Next.char (Char.ofNat n) rest = .char c rest := by
    rw [h, Char.ofNat_toNat]
  unfold encodeChar
  dsimp only
  split
  · next h =>
    have ha : (UInt8.ofNat c.toNat).toNat = c.toNat :=
      UInt8.toNat_ofNat_of_lt' (by simp only [UInt8.size]; omega)
    exact (next_one (by omega) rest).trans (hchar ha)
  · split
    · next h =>
      have ha : (UInt8.ofNat (0xC0 + c.toNat / 64)).toNat = 0xC0 + c.toNat / 64 :=
        UInt8.toNat_ofNat_of_lt' (by simp only [UInt8.size]; omega)
      have hb := hbits c.toNat
      generalize UInt8.ofNat (0xC0 + c.toNat / 64) = a at ha ⊢
      generalize UInt8.ofNat (0x80 + c.toNat % 64) = b at hb ⊢
      refine (next_two (by omega) (isContinuation_iff.2 (by omega)) rest).trans (hchar ?_)
      rw [push_eq hb]
      omega
    · split
      · next h =>
        have ha : (UInt8.ofNat (0xE0 + c.toNat / 4096)).toNat = 0xE0 + c.toNat / 4096 :=
          UInt8.toNat_ofNat_of_lt' (by simp only [UInt8.size]; omega)
        have hb := hbits (c.toNat / 64)
        have hc := hbits c.toNat
        generalize UInt8.ofNat (0xE0 + c.toNat / 4096) = a at ha ⊢
        generalize UInt8.ofNat (0x80 + c.toNat / 64 % 64) = b at hb ⊢
        generalize UInt8.ofNat (0x80 + c.toNat % 64) = d at hc ⊢
        have hsecond : isSecond a b = true :=
          isSecond_of_toNat (by omega) (by omega) (by omega) (by omega) (by omega)
        refine (next_three (by omega) hsecond (isContinuation_iff.2 (by omega)) rest).trans
          (hchar ?_)
        rw [push_eq hc, push_eq hb]
        omega
      · have ha : (UInt8.ofNat (0xF0 + c.toNat / 262144)).toNat = 0xF0 + c.toNat / 262144 :=
          UInt8.toNat_ofNat_of_lt' (by simp only [UInt8.size]; omega)
        have hb := hbits (c.toNat / 4096)
        have hc := hbits (c.toNat / 64)
        have hd := hbits c.toNat
        generalize UInt8.ofNat (0xF0 + c.toNat / 262144) = a at ha ⊢
        generalize UInt8.ofNat (0x80 + c.toNat / 4096 % 64) = b at hb ⊢
        generalize UInt8.ofNat (0x80 + c.toNat / 64 % 64) = d at hc ⊢
        generalize UInt8.ofNat (0x80 + c.toNat % 64) = e at hd ⊢
        have hsecond : isSecond a b = true :=
          isSecond_of_toNat (by omega) (by omega) (by omega) (by omega) (by omega)
        refine (next_four (by omega) hsecond (isContinuation_iff.2 (by omega))
          (isContinuation_iff.2 (by omega)) rest).trans (hchar ?_)
        rw [push_eq hd, push_eq hc, push_eq hb]
        omega

theorem decodeFrom_encode (position : Nat) (seen t : Text) :
    decodeFrom position seen (encode t) = .ok (seen.reverse ++ t) := by
  induction t generalizing position seen with
  | nil => simp [encode, decodeFrom, next]
  | cons c t ih =>
    have hnext : next (encode (c :: t)) = .char c (encode t) := next_encodeChar c (encode t)
    rw [decodeFrom]
    split
    · next h => simp [hnext] at h
    · next h =>
      obtain ⟨rfl, rfl⟩ := Next.char.inj (hnext.symm.trans h)
      rw [ih, List.reverse_cons, List.append_assoc, List.singleton_append]
    · next h => simp [hnext] at h

/-- **A text is read back from its bytes.** -/
theorem decode_encode (t : Text) : decode (encode t) = .ok t := decodeFrom_encode 0 [] t

theorem decodeLenient_encode (t : Text) : decodeLenient (encode t) = t := by
  induction t with
  | nil => exact decodeLenient_nil
  | cons c t ih =>
    have hnext : next (encode (c :: t)) = .char c (encode t) := next_encodeChar c (encode t)
    rw [decodeLenient_of_char hnext, ih]

end CodeIndex.Utf8
