import CodeIndex.Proofs.FileTree.Basic

/-!
# Trees without links

In a plain tree there are no links, and the entries of a directory have different names, each of
which leads down. What can be seen of an entry without looking below it is its face; `faceAt` shows
the face at every place of a tree. Putting a leaf (a file or an empty directory) into a directory
changes the face at one place only (`faceAt_put`), keeps every entry that is not above that place
(`get?_put_leaf`), and keeps the tree plain (`isPlain_put`).
-/

namespace CodeIndex

namespace Path

/-- The name of an entry that leads down. -/
def IsProper (n : Text) : Prop := IsName n ∧ n ≠ ['.', '.']

instance (n : Text) : Decidable (IsProper n) :=
  inferInstanceAs (Decidable (IsName n ∧ n ≠ ['.', '.']))

end Path

namespace Place

/-- All names on the way lead down. -/
def IsProper (p : Place) : Prop := ∀ n ∈ p, Path.IsProper n

namespace IsProper

variable {p q : Place} {name : Text}

theorem isName (h : p.IsProper) : ∀ n ∈ p, Path.IsName n := fun n hn => (h n hn).1

theorem append (hp : p.IsProper) (hq : q.IsProper) : IsProper (p ++ q) :=
  List.forall_mem_append.2 ⟨hp, hq⟩

theorem concat (hp : p.IsProper) (hname : Path.IsProper name) : IsProper (p ++ [name]) :=
  hp.append (List.forall_mem_singleton.2 hname)

end IsProper

end Place

namespace Entry

mutual

/-- There are no links, and the entries of every directory have different names that lead down. -/
def isPlain : Entry → Bool
  | file _ => true
  | directory entries =>
    decide (entries.map (·.1)).Nodup && (entries.map (·.1)).all (decide <| Path.IsProper ·) &&
      arePlain entries
  | link _ => false

/-- All entries of a directory are plain. -/
def arePlain : List (Text × Entry) → Bool
  | [] => true
  | (_, e) :: entries => isPlain e && arePlain entries

end

theorem arePlain_iff {entries : List (Text × Entry)} :
    arePlain entries = true ↔ ∀ a ∈ entries, a.2.isPlain = true := by
  induction entries with
  | nil => simp [arePlain]
  | cons a entries ih => rw [arePlain, Bool.and_eq_true, ih, List.forall_mem_cons]

theorem isPlain_directory {entries : List (Text × Entry)} :
    (directory entries).isPlain = true ↔ (entries.map (·.1)).Nodup ∧
      (∀ a ∈ entries, Path.IsProper a.1) ∧ ∀ a ∈ entries, a.2.isPlain = true := by
  rw [isPlain, Bool.and_eq_true, Bool.and_eq_true, arePlain_iff, decide_eq_true_eq,
    List.all_map, List.all_eq_true, and_assoc]
  simp

theorem isWellFormed_of_isPlain {e : Entry} (h : e.isPlain = true) : e.isWellFormed = true := by
  induction e using Entry.induction with
  | file bytes => rfl
  | link target => rfl
  | directory entries ih =>
    obtain ⟨hnodup, hnames, hentries⟩ := isPlain_directory.1 h
    exact isWellFormed_directory.2
      ⟨hnodup, fun a ha => (hnames a ha).1, fun a ha => ih a ha (hentries a ha)⟩

/-! ## Places -/

theorem get?_append (e : Entry) (p q : Place) : e.get? (p ++ q) = (e.get? p).bind (·.get? q) := by
  induction p generalizing e with
  | nil => simp [get?]
  | cons name p ih =>
    cases e with
    | file bytes => simp [get?]
    | link target => simp [get?]
    | directory entries =>
      simp only [List.cons_append, get?]
      cases lookup? name entries with
      | none => rfl
      | some e => exact ih e

theorem get?_append_singleton {tree : Entry} {here : Place} {entries : List (Text × Entry)}
    (h : tree.get? here = some (directory entries)) (name : Text) :
    tree.get? (here ++ [name]) = lookup? name entries := by
  rw [get?_append, h, Option.bind_some, get?]
  cases lookup? name entries <;> rfl

/-- A way that leads on from the root directory. -/
theorem exists_lookup?_of_get? {tree e : Entry} {name : Text} {p : Place}
    (h : tree.get? (name :: p) = some e) :
    ∃ entries f, tree = directory entries ∧ lookup? name entries = some f ∧ f.get? p = some e := by
  cases tree with
  | file bytes => simp [get?] at h
  | link target => simp [get?] at h
  | directory entries =>
    rw [get?] at h
    split at h
    · next f hf => exact ⟨entries, f, rfl, hf, h⟩
    · exact absurd h (by simp)

/-- Whatever has an entry below it is a directory. -/
theorem exists_directory_of_get? {tree e : Entry} {p q : Place} (hq : q ≠ [])
    (h : tree.get? (p ++ q) = some e) : ∃ entries, tree.get? p = some (directory entries) := by
  rw [get?_append] at h
  obtain ⟨f, hf, h⟩ := Option.bind_eq_some_iff.1 h
  obtain ⟨name, q, rfl⟩ := List.exists_cons_of_ne_nil hq
  obtain ⟨entries, -, rfl, -⟩ := exists_lookup?_of_get? h
  exact ⟨entries, hf⟩

theorem isPlain_of_get? {e f : Entry} {p : Place} (h : e.isPlain = true) (hf : e.get? p = some f) :
    f.isPlain = true ∧ p.IsProper := by
  induction p generalizing e with
  | nil =>
    obtain rfl : e = f := Option.some.inj hf
    exact ⟨h, by simp [Place.IsProper]⟩
  | cons name p ih =>
    obtain ⟨entries, e, rfl, he, hf⟩ := exists_lookup?_of_get? hf
    obtain ⟨hnodup, hnames, hentries⟩ := isPlain_directory.1 h
    have hmem := (lookup?_eq_some_iff hnodup).1 he
    obtain ⟨hplain, hproper⟩ := ih (hentries _ hmem) hf
    exact ⟨hplain, List.forall_mem_cons.2 ⟨hnames _ hmem, hproper⟩⟩

theorem get?_ne_link {tree : Entry} (h : tree.isPlain = true) (p : Place) (target : Text) :
    tree.get? p ≠ some (link target) := by
  intro hp
  exact absurd (isPlain_of_get? h hp).1 (by simp [isPlain])

/-! ## Faces -/

/-- What is seen of an entry without looking below it. -/
inductive Face where
  | file (bytes : List UInt8)
  | directory
  | link (target : Text)
  deriving DecidableEq

/-- The face of an entry. -/
def face : Entry → Face
  | file bytes => .file bytes
  | directory _ => .directory
  | link target => .link target

/-- The face of the entry at a place. -/
def faceAt (tree : Entry) (p : Place) : Option Face := (tree.get? p).map face

@[simp] theorem face_eq_file {e : Entry} {bytes : List UInt8} :
    e.face = .file bytes ↔ e = file bytes := by
  cases e <;> simp [face]

@[simp] theorem face_eq_directory {e : Entry} :
    e.face = .directory ↔ ∃ entries, e = directory entries := by
  cases e <;> simp [face]

@[simp] theorem face_eq_link {e : Entry} {text : Text} : e.face = .link text ↔ e = link text := by
  cases e <;> simp [face]

theorem faceAt_eq_none {tree : Entry} {p : Place} : tree.faceAt p = none ↔ tree.get? p = none := by
  simp [faceAt]

theorem faceAt_eq_file {tree : Entry} {p : Place} {bytes : List UInt8} :
    tree.faceAt p = some (.file bytes) ↔ tree.get? p = some (file bytes) := by
  simp [faceAt]

theorem faceAt_eq_link {tree : Entry} {p : Place} {text : Text} :
    tree.faceAt p = some (.link text) ↔ tree.get? p = some (link text) := by
  simp [faceAt]

theorem faceAt_eq_directory {tree : Entry} {p : Place} :
    tree.faceAt p = some .directory ↔ ∃ entries, tree.get? p = some (directory entries) := by
  simp only [faceAt, Option.map_eq_some_iff, face_eq_directory]
  constructor
  · rintro ⟨e, he, entries, rfl⟩
    exact ⟨entries, he⟩
  · rintro ⟨entries, h⟩
    exact ⟨_, h, entries, rfl⟩

/-- The places above an entry are directories. -/
theorem faceAt_above {tree e : Entry} {p q : Place} (hpq : p <+: q) (hne : p ≠ q)
    (h : tree.get? q = some e) : tree.faceAt p = some .directory := by
  obtain ⟨r, rfl⟩ := hpq
  exact faceAt_eq_directory.2 (exists_directory_of_get? (by rintro rfl; simp at hne) h)

/-! ## Putting an entry into a directory -/

theorem lookup?_insert (name n : Text) (e : Entry) (entries : List (Text × Entry)) :
    lookup? n (insert name e entries) = if name = n then some e else lookup? n entries := by
  induction entries with
  | nil => simp [insert, lookup?]
  | cons a entries ih =>
    obtain ⟨m, old⟩ := a
    by_cases hm : m = name
    · subst hm
      by_cases hn : m = n <;> simp [insert, lookup?, hn]
    · by_cases hn : m = n
      · subst hn
        simp [insert, lookup?, hm, Ne.symm hm]
      · simp [insert, lookup?, hm, hn, ih]

theorem insert_self {name : Text} {e : Entry} {entries : List (Text × Entry)}
    (h : lookup? name entries = some e) : insert name e entries = entries := by
  induction entries with
  | nil => simp [lookup?] at h
  | cons a entries ih =>
    obtain ⟨m, old⟩ := a
    by_cases hm : m = name
    · simp_all [insert, lookup?]
    · rw [lookup?, if_neg hm] at h
      rw [insert, if_neg hm, ih h]

theorem mem_insert {name : Text} {e : Entry} {entries : List (Text × Entry)} {a : Text × Entry}
    (h : a ∈ insert name e entries) : a = (name, e) ∨ a ∈ entries := by
  induction entries with
  | nil => simpa [insert] using h
  | cons b entries ih =>
    rw [insert] at h
    split at h <;> rcases List.mem_cons.1 h with rfl | h
    · next hb => simp [hb]
    · exact .inr (List.mem_cons_of_mem b h)
    · exact .inr (List.mem_cons_self ..)
    · exact (ih h).imp_right (List.mem_cons_of_mem b)

theorem nodup_insert {name : Text} (e : Entry) {entries : List (Text × Entry)}
    (h : (entries.map (·.1)).Nodup) : ((insert name e entries).map (·.1)).Nodup := by
  induction entries with
  | nil => simp [insert]
  | cons b entries ih =>
    obtain ⟨hb, h⟩ := List.nodup_cons.1 (List.map_cons .. ▸ h)
    rw [insert]
    split
    · exact List.nodup_cons.2 ⟨hb, h⟩
    · next hne =>
      refine List.nodup_cons.2 ⟨fun hmem => ?_, ih h⟩
      obtain ⟨a, ha, hab⟩ := List.mem_map.1 hmem
      rcases mem_insert ha with rfl | ha
      · exact hne hab.symm
      · exact hb (List.mem_map.2 ⟨a, ha, hab⟩)

theorem isPlain_insert {name : Text} {e : Entry} {entries : List (Text × Entry)}
    (h : (directory entries).isPlain = true) (hname : Path.IsProper name) (he : e.isPlain = true) :
    (directory (insert name e entries)).isPlain = true := by
  obtain ⟨hnodup, hnames, hentries⟩ := isPlain_directory.1 h
  refine isPlain_directory.2 ⟨nodup_insert e hnodup, fun a ha => ?_, fun a ha => ?_⟩
  · rcases mem_insert ha with rfl | ha
    · exact hname
    · exact hnames a ha
  · rcases mem_insert ha with rfl | ha
    · exact he
    · exact hentries a ha

theorem put_cons {entries : List (Text × Entry)} {name : Text} {e : Entry} {p : Place} (hp : p ≠ [])
    (h : lookup? name entries = some e) (new : Entry) :
    (directory entries).put (name :: p) new = directory (insert name (e.put p new) entries) := by
  obtain ⟨m, p, rfl⟩ := List.exists_cons_of_ne_nil hp
  simp [put, h]

theorem put_self {tree e : Entry} {p : Place} (h : tree.get? p = some e) : tree.put p e = tree := by
  induction p generalizing tree with
  | nil => exact (Option.some.inj h).symm
  | cons name p ih =>
    obtain ⟨entries, f, rfl, hf, h⟩ := exists_lookup?_of_get? h
    cases p with
    | nil =>
      obtain rfl : f = e := Option.some.inj h
      rw [put, insert_self hf]
    | cons m p => rw [put_cons (by simp) hf, ih h, insert_self hf]

section Put

variable {tree new : Entry} {here : Place} {name : Text} {entries : List (Text × Entry)}

variable (hdir : tree.get? here = some (directory entries))
include hdir

theorem get?_put_above :
    (tree.put (here ++ [name]) new).get? here = some (directory (insert name new entries)) := by
  induction here generalizing tree with
  | nil =>
    obtain rfl : tree = directory entries := Option.some.inj hdir
    rfl
  | cons m here ih =>
    obtain ⟨es, e, rfl, he, hdir⟩ := exists_lookup?_of_get? hdir
    rw [List.cons_append, put_cons (by simp) he, get?, lookup?_insert, if_pos rfl]
    exact ih hdir

theorem get?_put_below (q : Place) :
    (tree.put (here ++ [name]) new).get? (here ++ name :: q) = new.get? q := by
  rw [get?_append, get?_put_above hdir, Option.bind_some, get?, lookup?_insert, if_pos rfl]

/-- An entry stays that is neither above nor below the place. -/
theorem get?_put_elsewhere {q : Place} (hq : ¬ q <+: here ++ [name])
    (hq' : ¬ here ++ [name] <+: q) : (tree.put (here ++ [name]) new).get? q = tree.get? q := by
  induction here generalizing tree q with
  | nil =>
    obtain rfl : tree = directory entries := Option.some.inj hdir
    cases q with
    | nil => simp at hq
    | cons m q =>
      have hm : name ≠ m := by rintro rfl; simp at hq'
      rw [List.nil_append, put, get?, lookup?_insert, if_neg hm, get?]
  | cons m here ih =>
    obtain ⟨es, e, rfl, he, hdir⟩ := exists_lookup?_of_get? hdir
    cases q with
    | nil => simp at hq
    | cons k q =>
      rw [List.cons_append, put_cons (by simp) he, get?, lookup?_insert, get?]
      by_cases hk : m = k
      · subst hk
        rw [if_pos rfl, he]
        exact ih hdir (by simpa using hq) (by simpa using hq')
      · rw [if_neg hk]

theorem isPlain_put (htree : tree.isPlain = true) (hnew : new.isPlain = true)
    (hname : Path.IsProper name) : (tree.put (here ++ [name]) new).isPlain = true := by
  induction here generalizing tree with
  | nil =>
    obtain rfl : tree = directory entries := Option.some.inj hdir
    exact isPlain_insert htree hname hnew
  | cons m here ih =>
    obtain ⟨es, e, rfl, he, hdir⟩ := exists_lookup?_of_get? hdir
    have hlead : (directory es).get? [m] = some e := by simp [get?, he]
    obtain ⟨hplain, hm⟩ := isPlain_of_get? htree hlead
    rw [List.cons_append, put_cons (by simp) he]
    exact isPlain_insert htree (hm m (by simp)) (ih hdir hplain)

end Put

/-! ## Leaves -/

/-- Nothing is below the entry. -/
def IsLeaf (e : Entry) : Prop := ∀ name p, e.get? (name :: p) = none

theorem isLeaf_file (bytes : List UInt8) : (file bytes).IsLeaf := fun _ _ => rfl

theorem isLeaf_directory : (directory []).IsLeaf := fun _ _ => rfl

section PutLeaf

variable {tree new : Entry} {here : Place} {name : Text} {entries : List (Text × Entry)}
  (hdir : tree.get? here = some (directory entries))
  (hold : ∀ e, tree.get? (here ++ [name]) = some e → e.IsLeaf)

include hold in
theorem get?_below_leaf (m : Text) (r : Place) : tree.get? (here ++ name :: m :: r) = none := by
  rw [← List.singleton_append, ← List.append_assoc, get?_append]
  cases h : tree.get? (here ++ [name]) with
  | none => rfl
  | some e => exact hold e h m r

include hdir hold

/-- **A leaf put over nothing or another leaf changes the face at its place only.** -/
theorem faceAt_put (hnew : new.IsLeaf) (q : Place) : (tree.put (here ++ [name]) new).faceAt q =
    if q = here ++ [name] then some new.face else tree.faceAt q := by
  by_cases hbelow : here ++ [name] <+: q
  · obtain ⟨r, rfl⟩ := hbelow
    rw [faceAt, List.append_assoc, List.singleton_append, get?_put_below hdir]
    cases r with
    | nil => simp [get?]
    | cons m r => rw [hnew m r, if_neg (by simp), faceAt, get?_below_leaf hold]
  · rw [if_neg (by rintro rfl; exact hbelow List.prefix_rfl)]
    by_cases habove : q <+: here ++ [name]
    · have hq : q <+: here := by
        rcases List.prefix_concat_iff.1 habove with rfl | hq
        · exact absurd List.prefix_rfl hbelow
        · exact hq
      have habove' : (tree.put (here ++ [name]) new).get? here =
          some (directory (insert name new entries)) := get?_put_above hdir
      by_cases hne : q = here
      · subst hne
        rw [faceAt, faceAt, habove', hdir]
        rfl
      · rw [faceAt_above hq hne habove', faceAt_above hq hne hdir]
    · rw [faceAt, faceAt, get?_put_elsewhere hdir habove hbelow]

/-- An entry stays if it is not above the place and not at it. -/
theorem get?_put_leaf {q : Place} {e : Entry} (hq : ¬ q <+: here ++ [name])
    (he : tree.get? q = some e) : (tree.put (here ++ [name]) new).get? q = some e := by
  rw [get?_put_elsewhere hdir hq, he]
  rintro ⟨r, rfl⟩
  rw [List.append_assoc, List.singleton_append] at he
  cases r with
  | nil => exact hq (by simp)
  | cons m r => exact absurd he (by rw [get?_below_leaf hold]; simp)

end PutLeaf

end Entry

end CodeIndex
