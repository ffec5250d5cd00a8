import Mathlib.Data.List.Nodup
import CodeIndex.FileTree.Basic
import CodeIndex.Proofs.Path
import CodeIndex.Proofs.Text.Order

/-!
# Well-formed trees

In a well-formed tree the entries of a directory have different names, and the names are names.
There every entry is the one at its own place (`lookup?_eq_some_iff`). `Entry.induction` is the
induction over the directories of a tree.

`Place.Precedes` is the order in which a walk meets the files of a tree.
-/

namespace CodeIndex

namespace Place

/-- The path to a place from the root of its tree. -/
def relativePath (p : Place) : Text := Text.join ['/'] p

/-- The components of the path are the names on the way. -/
theorem components_relativePath {p : Place} (h : ∀ n ∈ p, Path.IsName n) :
    Path.components p.relativePath = p :=
  Path.components_join h

theorem components_append_relativePath {p : Place} (h : ∀ n ∈ p, Path.IsName n) (root : Text) :
    Path.components (Path.append root p.relativePath) = Path.components root ++ p := by
  rw [relativePath, Path.components_append (Path.isAbsolute_join h), Path.components_join h]

/-- The suffix of a path is the one of its last name. -/
theorem lowerSuffix_relativePath {p : Place} {name : Text} (h : ∀ n ∈ p ++ [name], Path.IsName n) :
    Path.lowerSuffix (relativePath (p ++ [name])) = Path.lowerSuffix name := by
  have hpath : Path.name (relativePath (p ++ [name])) = name := by
    rw [Path.name, components_relativePath h, List.getLastD_concat]
  have hname : Path.name name = name := by
    have hone := components_relativePath (List.forall_mem_singleton.2 (h name (by simp)))
    rw [relativePath, Text.join_singleton] at hone
    rw [Path.name, hone]
    rfl
  rw [Path.lowerSuffix, Path.lowerSuffix, Path.suffix, Path.suffix, hpath, hname]

/-- The files of a directory come first, in code point order of their names, and then those of its
subdirectories, one subdirectory after the other in the same order. -/
def Precedes : Place → Place → Prop
  | [a], [b] => Text.Lt a b
  | [_], _ :: _ :: _ => True
  | a :: a' :: p, b :: b' :: q => Text.Lt a b ∨ (a = b ∧ Precedes (a' :: p) (b' :: q))
  | _, _ => False

theorem Precedes.append {p q : Place} (h : Precedes p q) (hp : p ≠ []) (hq : q ≠ []) (d : Place) :
    Precedes (d ++ p) (d ++ q) := by
  induction d with
  | nil => exact h
  | cons n d ih =>
    obtain ⟨a, p', hp'⟩ := List.exists_cons_of_ne_nil (List.append_ne_nil_of_right_ne_nil d hp)
    obtain ⟨b, q', hq'⟩ := List.exists_cons_of_ne_nil (List.append_ne_nil_of_right_ne_nil d hq)
    rw [hp', hq'] at ih
    rw [List.cons_append, List.cons_append, hp', hq']
    exact .inr ⟨rfl, ih⟩

theorem Precedes.irrefl (p : Place) : ¬ Precedes p p := by
  induction p with
  | nil => exact id
  | cons a p ih =>
    cases p with
    | nil => exact Text.Lt.irrefl a
    | cons a' p =>
      rintro (h | ⟨-, h⟩)
      · exact Text.Lt.irrefl a h
      · exact ih h

end Place

namespace Entry

mutual

/-- The entries of every directory have different names, without slashes and other than a dot. -/
def isWellFormed : Entry → Bool
  | directory entries =>
    decide (entries.map (·.1)).Nodup && (entries.map (·.1)).all (decide <| Path.IsName ·) &&
      areWellFormed entries
  | _ => true

/-- All entries of a directory are well-formed. -/
def areWellFormed : List (Text × Entry) → Bool
  | [] => true
  | (_, e) :: entries => isWellFormed e && areWellFormed entries

end

theorem areWellFormed_iff {entries : List (Text × Entry)} :
    areWellFormed entries = true ↔ ∀ a ∈ entries, a.2.isWellFormed = true := by
  induction entries with
  | nil => simp [areWellFormed]
  | cons a entries ih => rw [areWellFormed, Bool.and_eq_true, ih, List.forall_mem_cons]

theorem isWellFormed_directory {entries : List (Text × Entry)} :
    (directory entries).isWellFormed = true ↔ (entries.map (·.1)).Nodup ∧
      (∀ a ∈ entries, Path.IsName a.1) ∧ ∀ a ∈ entries, a.2.isWellFormed = true := by
  rw [isWellFormed, Bool.and_eq_true, Bool.and_eq_true, areWellFormed_iff, decide_eq_true_eq,
    List.all_map, List.all_eq_true, and_assoc]
  simp

/-- **What holds of a directory when it holds of its entries holds of all trees.** -/
theorem induction {motive : Entry → Prop} (file : ∀ bytes, motive (.file bytes))
    (link : ∀ target, motive (.link target))
    (directory : ∀ entries, (∀ a ∈ entries, motive a.2) → motive (.directory entries)) (e : Entry) :
    motive e :=
  match e with
  | .file bytes => file bytes
  | .link target => link target
  | .directory entries => directory entries fun a ha => by
    have : sizeOf a.2 < 1 + sizeOf entries := by
      have hlt := List.sizeOf_lt_of_mem ha
      have heq : sizeOf a = 1 + sizeOf a.1 + sizeOf a.2 := rfl
      omega
    exact induction file link directory a.2

theorem lookup?_eq_some_iff {entries : List (Text × Entry)} (h : (entries.map (·.1)).Nodup)
    {name : Text} {e : Entry} : lookup? name entries = some e ↔ (name, e) ∈ entries := by
  induction entries with
  | nil => simp [lookup?]
  | cons a entries ih =>
    obtain ⟨n, e'⟩ := a
    obtain ⟨hn, h⟩ := List.nodup_cons.1 (List.map_cons .. ▸ h)
    by_cases hname : n = name
    · subst hname
      have : (n, e) ∉ entries := fun hm => hn (List.mem_map.2 ⟨(n, e), hm, rfl⟩)
      simp [lookup?, this, eq_comm]
    · rw [lookup?, if_neg hname, ih h, List.mem_cons]
      simp [Ne.symm hname]

theorem get?_directory_cons {entries : List (Text × Entry)} (h : (entries.map (·.1)).Nodup)
    {name : Text} {p : Place} {f : Entry} :
    (directory entries).get? (name :: p) = some f ↔
      ∃ e, (name, e) ∈ entries ∧ e.get? p = some f := by
  rw [get?]
  cases hl : lookup? name entries with
  | none =>
    refine ⟨nofun, ?_⟩
    rintro ⟨e, he, -⟩
    rw [(lookup?_eq_some_iff h).2 he] at hl
    exact absurd hl (by simp)
  | some e =>
    refine ⟨fun hf => ⟨e, (lookup?_eq_some_iff h).1 hl, hf⟩, ?_⟩
    rintro ⟨e', he', hf⟩
    rw [(lookup?_eq_some_iff h).2 he', Option.some.injEq] at hl
    exact hl ▸ hf

/-- The names on the way to an entry are names. -/
theorem isName_of_get? {e f : Entry} {p : Place} (h : e.isWellFormed = true)
    (hf : e.get? p = some f) : ∀ n ∈ p, Path.IsName n := by
  induction p generalizing e with
  | nil => simp
  | cons name p ih =>
    cases e with
    | file bytes => simp [get?] at hf
    | link target => simp [get?] at hf
    | directory entries =>
      obtain ⟨hnodup, hnames, hentries⟩ := isWellFormed_directory.1 h
      obtain ⟨e, he, hf⟩ := (get?_directory_cons hnodup).1 hf
      exact List.forall_mem_cons.2 ⟨hnames _ he, ih (hentries _ he) hf⟩

theorem isWellFormed_of_get? {e f : Entry} {p : Place} (h : e.isWellFormed = true)
    (hf : e.get? p = some f) : f.isWellFormed = true := by
  induction p generalizing e with
  | nil => rwa [← Option.some.inj hf]
  | cons name p ih =>
    cases e with
    | file bytes => simp [get?] at hf
    | link target => simp [get?] at hf
    | directory entries =>
      obtain ⟨hnodup, -, hentries⟩ := isWellFormed_directory.1 h
      obtain ⟨e, he, hf⟩ := (get?_directory_cons hnodup).1 hf
      exact ih (hentries _ he) hf

end Entry

end CodeIndex
