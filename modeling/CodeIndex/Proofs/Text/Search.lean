import Mathlib.Tactic.Common
import CodeIndex.Text.Search

/-!
# What a search finds

A search from a position finds the hit at the first place from there on at which the recogniser
succeeds (`searchFromPos?_eq_some_iff`); a search through a whole text starts at its first position
(`search?_eq_some_iff`). A search for all hits lists hits of the text from left to right
(`hitIn?_of_mem_searchAll`, `pairwise_searchAll`).
-/

namespace CodeIndex.Text

variable {α : Type} {r : Recogniser α} {t : Text} {pos : Nat} {hit : Hit α}

/-- The character before a position of a text. -/
def charBefore? (t : Text) (pos : Nat) : Option Char :=
  if pos = 0 then none else (t.drop (pos - 1)).head?

/-- The hit of a recogniser at a position of a text. -/
def hitIn? (r : Recogniser α) (t : Text) (pos : Nat) : Option (Hit α) :=
  hitAt? r (charBefore? t pos) pos (t.drop pos)

theorem hitIn?_eq_some {a : α} {rest : Text}
    (h : r (charBefore? t pos) (t.drop pos) = some (a, rest)) :
    hitIn? r t pos = some ⟨a, pos, pos + ((t.drop pos).length - rest.length), rest⟩ := by
  rw [hitIn?, hitAt?, h, Option.map_some]

/-- A hit tells what the recogniser answers at its position. -/
theorem of_hitIn? (h : hitIn? r t pos = some hit) :
    hit.start = pos ∧ r (charBefore? t pos) (t.drop pos) = some (hit.value, hit.rest) := by
  rw [hitIn?, hitAt?, Option.map_eq_some_iff] at h
  obtain ⟨⟨a, rest⟩, hr, rfl⟩ := h
  exact ⟨rfl, hr⟩

theorem start_le_stop_of_hitIn? (h : hitIn? r t pos = some hit) : hit.start ≤ hit.stop := by
  rw [hitIn?, hitAt?, Option.map_eq_some_iff] at h
  obtain ⟨⟨a, rest⟩, -, rfl⟩ := h
  exact Nat.le_add_right _ _

/-- What a hit leaves unread stands behind it. -/
theorem drop_stop_of_hitIn? (h : hitIn? r t pos = some hit) (hrest : hit.rest <:+ t.drop pos) :
    t.drop hit.stop = hit.rest := by
  rw [hitIn?, hitAt?, Option.map_eq_some_iff] at h
  obtain ⟨⟨a, rest⟩, -, rfl⟩ := h
  rw [← List.drop_drop]
  exact (List.suffix_iff_eq_drop.1 hrest).symm

theorem charBefore?_succ {c : Char} {rest : Text} (h : t.drop pos = c :: rest) :
    charBefore? t (pos + 1) = some c := by
  rw [charBefore?, if_neg (Nat.succ_ne_zero pos), Nat.add_sub_cancel, h, List.head?_cons]

/-- Inside of a part of a text, the character before a position is that of the part. -/
theorem charBefore?_append {before mid rest : Text} {i : Nat} (hi : 0 < i) (hmid : i ≤ mid.length) :
    charBefore? (before ++ (mid ++ rest)) (before.length + i) = charBefore? mid i := by
  obtain ⟨j, rfl⟩ : ∃ j, i = j + 1 := ⟨i - 1, by omega⟩
  have hdrop : mid.drop j = mid[j] :: mid.drop (j + 1) := List.drop_eq_getElem_cons hmid
  have hdrop' : (before ++ (mid ++ rest)).drop (before.length + j) =
      mid[j] :: (mid.drop (j + 1) ++ rest) := by
    rw [← List.drop_drop, List.drop_left, List.drop_append_of_le_length (Nat.le_of_lt hmid), hdrop,
      List.cons_append]
  rw [← Nat.add_assoc, charBefore?_succ hdrop', charBefore?_succ hdrop]

theorem hitAt?_eq_hitIn? {rest : Text} (h : t.drop pos = rest) :
    hitAt? r (charBefore? t pos) pos rest = hitIn? r t pos := by
  rw [hitIn?, h]

theorem drop_succ_of_cons {c : Char} {rest : Text} (h : t.drop pos = c :: rest) :
    t.drop (pos + 1) = rest := by
  rw [← List.drop_drop, h, List.drop_one, List.tail_cons]

/-- A position inside of a text without line feeds, or at its end, starts no line. -/
theorem lt_of_startsLine {before mid rest : Text} (hmid : '\n' ∉ mid)
    (hs : startsLine (charBefore? (before ++ (mid ++ rest)) pos) = true)
    (hlt : before.length < pos) : before.length + mid.length < pos := by
  by_contra hge
  obtain ⟨i, rfl⟩ : ∃ i, pos = before.length + (i + 1) := ⟨pos - before.length - 1, by omega⟩
  have hi : i < mid.length := by omega
  rw [charBefore?_append (Nat.succ_pos i) hi, charBefore?_succ (List.drop_eq_getElem_cons hi)] at hs
  have hfeed : mid[i] = '\n' := by simpa [startsLine] using hs
  exact hmid (hfeed ▸ List.getElem_mem hi)

/-- The hit is the first one from a position on. -/
structure IsFirstHit (r : Recogniser α) (t : Text) (pos : Nat) (hit : Hit α) : Prop where
  le : pos ≤ hit.start
  inside : hit.start ≤ t.length
  found : hitIn? r t hit.start = some hit
  first : ∀ p, pos ≤ p → p < hit.start → hitIn? r t p = none

/-- When there is no hit at a position, the first hit comes later. -/
theorem isFirstHit_succ_iff (h : hitIn? r t pos = none) :
    IsFirstHit r t (pos + 1) hit ↔ IsFirstHit r t pos hit := by
  constructor
  · intro hf
    refine ⟨Nat.le_of_succ_le hf.le, hf.inside, hf.found, fun p hp hlt => ?_⟩
    rcases Nat.eq_or_lt_of_le hp with rfl | hp
    · exact h
    · exact hf.first p hp hlt
  · intro hf
    refine ⟨?_, hf.inside, hf.found, fun p hp hlt => hf.first p (Nat.le_of_succ_le hp) hlt⟩
    refine Nat.lt_of_le_of_ne hf.le fun heq => ?_
    have hfound := hf.found
    rw [← heq, h] at hfound
    exact absurd hfound (by simp)

/-- A hit at the position itself is the first one. -/
theorem isFirstHit_iff_of_hitIn? {hit' : Hit α} (hpos : pos ≤ t.length)
    (h : hitIn? r t pos = some hit') : IsFirstHit r t pos hit ↔ hit' = hit := by
  have hstart : hit'.start = pos := (of_hitIn? h).1
  constructor
  · intro hf
    have heq : hit.start = pos := by
      by_contra hne
      have hnone := hf.first pos (Nat.le_refl pos) (Nat.lt_of_le_of_ne hf.le (Ne.symm hne))
      rw [h] at hnone
      exact absurd hnone (by simp)
    have hfound := hf.found
    rw [heq, h] at hfound
    exact Option.some.inj hfound
  · rintro rfl
    refine ⟨Nat.le_of_eq hstart.symm, by rwa [hstart], by rwa [hstart], fun p hp hlt => ?_⟩
    omega

theorem searchFrom?_eq_some_iff (hpos : pos ≤ t.length) :
    searchFrom? r (charBefore? t pos) pos (t.drop pos) = some hit ↔ IsFirstHit r t pos hit := by
  -- by induction on the text behind the position
  induction hrest : t.drop pos generalizing pos with
  | nil =>
    have hend : pos = t.length := by
      have := List.drop_eq_nil_iff.1 hrest
      omega
    rw [searchFrom?, hitAt?_eq_hitIn? hrest]
    cases h : hitIn? r t pos with
    | some hit' => rw [isFirstHit_iff_of_hitIn? hpos h, Option.some.injEq]
    | none =>
      rw [← isFirstHit_succ_iff h]
      refine ⟨fun h => absurd h (by simp), fun h => ?_⟩
      have := h.le
      have := h.inside
      omega
  | cons c rest ih =>
    have hlt : pos < t.length := by
      by_contra hge
      rw [List.drop_eq_nil_of_le (Nat.le_of_not_lt hge)] at hrest
      exact absurd hrest (by simp)
    rw [searchFrom?, hitAt?_eq_hitIn? hrest]
    cases h : hitIn? r t pos with
    | some hit' => rw [isFirstHit_iff_of_hitIn? hpos h, Option.some.injEq]
    | none =>
      rw [← isFirstHit_succ_iff h, ← ih hlt (drop_succ_of_cons hrest), charBefore?_succ hrest]

/-- **A search from a position finds the first hit.** -/
theorem searchFromPos?_eq_some_iff :
    searchFromPos? r pos t = some hit ↔ IsFirstHit r t pos hit := by
  rw [searchFromPos?]
  split
  · next hpos => exact searchFrom?_eq_some_iff hpos
  · next hpos =>
    refine ⟨fun h => absurd h (by simp), fun h => absurd (Nat.le_trans h.le h.inside) hpos⟩

/-- A hit at a later position shows that there is a first one before it. -/
theorem exists_isFirstHit {p : Nat} (hpos : pos ≤ p) (hp : p ≤ t.length)
    (h : (hitIn? r t p).isSome = true) : ∃ hit, IsFirstHit r t pos hit ∧ hit.start ≤ p := by
  -- by induction on the distance
  induction hk : p - pos generalizing pos with
  | zero =>
    obtain rfl : pos = p := by omega
    obtain ⟨hit, hhit⟩ := Option.isSome_iff_exists.1 h
    exact ⟨hit, (isFirstHit_iff_of_hitIn? hp hhit).2 rfl, Nat.le_of_eq (of_hitIn? hhit).1⟩
  | succ k ih =>
    cases hhit : hitIn? r t pos with
    | some hit =>
      refine ⟨hit, (isFirstHit_iff_of_hitIn? (Nat.le_trans hpos hp) hhit).2 rfl, ?_⟩
      rwa [(of_hitIn? hhit).1]
    | none =>
      obtain ⟨hit, hfirst, hle⟩ := @ih (pos + 1) (by omega) (by omega)
      exact ⟨hit, (isFirstHit_succ_iff hhit).1 hfirst, hle⟩

/-- **A search through a text finds its first hit.** -/
theorem search?_eq_some_iff : search? r t = some hit ↔ IsFirstHit r t 0 hit :=
  searchFrom?_eq_some_iff (Nat.zero_le _)

theorem search?_eq_none_iff : search? r t = none ↔ ∀ p ≤ t.length, hitIn? r t p = none := by
  constructor
  · intro h p hp
    by_contra hsome
    obtain ⟨hit, hfirst, -⟩ :=
      exists_isFirstHit (Nat.zero_le p) hp (Option.isSome_iff_ne_none.2 hsome)
    rw [search?_eq_some_iff.2 hfirst] at h
    exact absurd h (by simp)
  · intro h
    by_contra hsome
    obtain ⟨hit, hhit⟩ := Option.ne_none_iff_exists'.1 hsome
    obtain ⟨-, hinside, hfound, -⟩ := search?_eq_some_iff.1 hhit
    rw [h _ hinside] at hfound
    exact absurd hfound (by simp)

/-! ## All hits -/

/-- Hits that were found before stay in front. -/
theorem searchAllFrom_eq (hits : List (Hit α)) (skip : Nat) (before : Option Char) (pos : Nat)
    (t : Text) :
    searchAllFrom r hits skip before pos t =
      hits.reverse ++ searchAllFrom r [] skip before pos t := by
  induction t generalizing hits skip before pos with
  | nil => cases skip <;> simp [searchAllFrom]
  | cons c t ih =>
    cases skip with
    | succ skip => rw [searchAllFrom, searchAllFrom, ih]
    | zero =>
      rw [searchAllFrom, searchAllFrom]
      cases hitAt? r before pos (c :: t) with
      | some hit =>
        dsimp only
        rw [ih, ih [hit], List.reverse_cons, List.append_assoc]
        rfl
      | none => exact ih hits 0 (some c) (pos + 1)

/-- Every hit that is found from a position on is one of the text. -/
theorem hitIn?_of_mem_searchAllFrom {skip : Nat}
    (h : hit ∈ searchAllFrom r [] skip (charBefore? t pos) pos (t.drop pos)) :
    pos ≤ hit.start ∧ hit.start < t.length ∧ hitIn? r t hit.start = some hit := by
  induction hrest : t.drop pos generalizing pos skip with
  | nil =>
    rw [hrest] at h
    cases skip <;> exact absurd h List.not_mem_nil
  | cons c rest ih =>
    have hlt : pos < t.length := by
      by_contra hge
      rw [List.drop_eq_nil_of_le (Nat.le_of_not_lt hge)] at hrest
      exact absurd hrest (by simp)
    have hnext : t.drop (pos + 1) = rest := drop_succ_of_cons hrest
    have hlater : ∀ skip, hit ∈ searchAllFrom r [] skip (some c) (pos + 1) rest →
        pos ≤ hit.start ∧ hit.start < t.length ∧ hitIn? r t hit.start = some hit := by
      intro skip h
      rw [← charBefore?_succ hrest, ← hnext] at h
      obtain ⟨hle, hinside, hfound⟩ := ih h hnext
      exact ⟨Nat.le_of_succ_le hle, hinside, hfound⟩
    rw [hrest] at h
    cases skip with
    | succ skip =>
      rw [searchAllFrom] at h
      exact hlater skip h
    | zero =>
      rw [searchAllFrom, hitAt?_eq_hitIn? hrest] at h
      cases hhit : hitIn? r t pos with
      | some hit' =>
        simp only [hhit] at h
        rw [searchAllFrom_eq, List.mem_append, List.mem_reverse, List.mem_singleton] at h
        rcases h with rfl | h
        · have hstart := (of_hitIn? hhit).1
          rw [hstart]
          exact ⟨Nat.le_refl _, hlt, hhit⟩
        · exact hlater _ h
      | none =>
        simp only [hhit] at h
        exact hlater 0 h

theorem pairwise_searchAllFrom (skip : Nat) (pos : Nat) (t : Text) :
    (searchAllFrom r [] skip (charBefore? t pos) pos (t.drop pos)).Pairwise
      (fun a b => a.start < b.start) := by
  induction hrest : t.drop pos generalizing pos skip with
  | nil => cases skip <;> exact .nil
  | cons c rest ih =>
    have hnext : t.drop (pos + 1) = rest := drop_succ_of_cons hrest
    have hlater : ∀ skip, (searchAllFrom r [] skip (some c) (pos + 1) rest).Pairwise
        (fun a b => a.start < b.start) := by
      intro skip
      have := ih skip (pos + 1) hnext
      rwa [charBefore?_succ hrest] at this
    cases skip with
    | succ skip => exact hlater skip
    | zero =>
      rw [searchAllFrom, hitAt?_eq_hitIn? hrest]
      cases hhit : hitIn? r t pos with
      | some hit' =>
        dsimp only
        rw [searchAllFrom_eq]
        refine List.pairwise_cons.2 ⟨fun hit h => ?_, hlater _⟩
        rw [← charBefore?_succ hrest, ← hnext] at h
        have := (hitIn?_of_mem_searchAllFrom h).1
        have := (of_hitIn? hhit).1
        omega
      | none => exact hlater 0

/-- **`searchAll` lists hits of the text, from left to right.** -/
theorem pairwise_searchAll (r : Recogniser α) (t : Text) :
    (searchAll r t).Pairwise (fun a b => a.start < b.start) :=
  pairwise_searchAllFrom 0 0 t

theorem hitIn?_of_mem_searchAll (h : hit ∈ searchAll r t) :
    hit.start < t.length ∧ hitIn? r t hit.start = some hit :=
  (@hitIn?_of_mem_searchAllFrom _ _ _ 0 _ _ h).2

end CodeIndex.Text
