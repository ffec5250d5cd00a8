import CodeIndex.Proofs.FileTree.Resolve
import CodeIndex.Proofs.Text.Cut
import CodeIndex.Report.Markdown

/-!
# Ways from one place to another

`Path.relative` leads back from a place to where two ways part, and then down to the other place.
Ways from one place to different places are different (`relative_inj`). The directory part of the
way to a file is the way to its directory (`directory_relative`), unless the file lies on the way to
where it starts.
-/

namespace CodeIndex

/-! ## Where two ways part -/

namespace Path

theorem exists_of_dropCommon (s t : List Text) :
    ∃ c, s = c ++ (dropCommon s t).1 ∧ t = c ++ (dropCommon s t).2 := by
  fun_induction dropCommon s t with
  | case1 s a t ih =>
    obtain ⟨c, hs, ht⟩ := ih
    exact ⟨a :: c, by rw [List.cons_append, ← hs], by rw [List.cons_append, ← ht]⟩
  | case2 a s b t hne => exact ⟨[], rfl, rfl⟩
  | case3 s t hother => exact ⟨[], rfl, rfl⟩

/-- One name further down, two ways part at the same place, unless the first one passes there. -/
theorem dropCommon_concat {s t : List Text} {name : Text} (h : ¬ t ++ [name] <+: s) :
    dropCommon s (t ++ [name]) = ((dropCommon s t).1, (dropCommon s t).2 ++ [name]) := by
  fun_induction dropCommon s t with
  | case1 s a t ih =>
    rw [List.cons_append, List.cons_prefix_cons] at h
    rw [List.cons_append, dropCommon, if_pos rfl]
    exact ih fun hprefix => h ⟨rfl, hprefix⟩
  | case2 a s b t hne => rw [List.cons_append, dropCommon, if_neg hne]
  | case3 s t hother =>
    cases s with
    | nil => cases t <;> rfl
    | cons a s =>
      cases t with
      | nil =>
        have hne : a ≠ name := by
          rintro rfl
          exact h (by simp)
        rw [List.nil_append, dropCommon, if_neg hne]
      | cons b t => exact (hother a s b t rfl rfl).elim

end Path

namespace Place

variable {r p q : Place}

theorem resolve_path (hp : p.IsProper) : Path.resolve p.path = p := by
  have hpush (names above : List Text) (h : ∀ n ∈ names, n ≠ ['.', '.']) :
      names.foldl Path.push above = names.reverse ++ above := by
    induction names generalizing above with
    | nil => rfl
    | cons n names ih =>
      obtain ⟨hn, hnames⟩ := List.forall_mem_cons.1 h
      rw [List.foldl_cons, Path.push, if_neg hn, ih _ hnames, List.reverse_cons, List.append_assoc,
        List.singleton_append]
  rw [Path.resolve, components_path hp.isName, hpush p [] fun n hn => (hp n hn).2, List.append_nil,
    List.reverse_reverse]

/-- The names that lead from one place to another. -/
def way (r p : Place) : List Text :=
  ((Path.dropCommon r p).1.map fun _ => ['.', '.']) ++ (Path.dropCommon r p).2

theorem relative_path (hr : r.IsProper) (hp : p.IsProper) :
    Path.relative r.path p.path = if way r p = [] then ['.'] else Text.join ['/'] (way r p) := by
  rw [Path.relative, resolve_path hr, resolve_path hp, way]
  dsimp only
  split
  · next hway => rw [if_pos hway]
  · next hne => rw [if_neg hne]

theorem isName_of_mem_way (hp : p.IsProper) {n : Text} (hn : n ∈ way r p) : Path.IsName n := by
  rcases List.mem_append.1 hn with hn | hn
  · obtain ⟨m, -, rfl⟩ := List.mem_map.1 hn
    decide
  · obtain ⟨c, -, hdown⟩ := Path.exists_of_dropCommon r p
    exact (hp n (hdown ▸ List.mem_append_right c hn)).1

theorem way_inj (hp : p.IsProper) (hq : q.IsProper) (h : way r p = way r q) : p = q := by
  obtain ⟨c, hrp, hdown⟩ := Path.exists_of_dropCommon r p
  obtain ⟨c', hrq, hdown'⟩ := Path.exists_of_dropCommon r q
  have hnot {p c down : Place} (hp : p.IsProper) (hdown : p = c ++ down) :
      down.count ['.', '.'] = 0 :=
    List.count_eq_zero.2 fun hmem => (hp _ (hdown ▸ List.mem_append_right c hmem)).2 rfl
  -- the steps back are counted, and so the ways part at the same place
  have hback : (Path.dropCommon r p).1.length = (Path.dropCommon r q).1.length := by
    have hcount := congrArg (List.count ['.', '.']) h
    simpa [way, List.map_const', List.count_append, List.count_replicate_self, hnot hp hdown,
      hnot hq hdown'] using hcount
  have hcommon : c = c' := (List.append_inj' (hrp.symm.trans hrq) hback).1
  have hrest : (Path.dropCommon r p).2 = (Path.dropCommon r q).2 := by
    rw [way, way, List.map_const', List.map_const', hback] at h
    exact List.append_cancel_left h
  rw [hdown, hdown', hcommon, hrest]

/-- **Different places have different ways to them.** -/
theorem relative_inj (hr : r.IsProper) (hp : p.IsProper) (hq : q.IsProper)
    (h : Path.relative r.path p.path = Path.relative r.path q.path) : p = q := by
  have hcomponents {p : Place} (hp : p.IsProper) :
      Path.components (Path.relative r.path p.path) = way r p := by
    rw [relative_path hr hp]
    split
    · next hnil =>
      rw [hnil]
      rfl
    · exact Path.components_join fun n hn => isName_of_mem_way hp hn
  have hway : way r p = way r q := by rw [← hcomponents hp, ← hcomponents hq, h]
  exact way_inj hp hq hway

end Place

/-! ## Directory parts -/

theorem Markdown.directory_join {names : List Text} (hnames : ∀ n ∈ names, Path.IsName n)
    {name : Text} (hname : Path.IsName name) :
    directory (Text.join ['/'] (names ++ [name])) =
      if names = [] then ['.'] else Text.join ['/'] names := by
  have hslash : '/' ∉ name.reverse := by simpa using hname.2.2
  cases names with
  | nil =>
    rw [List.nil_append, Text.join_singleton, directory, Text.cut?_char_eq_none hslash]
    rfl
  | cons n names =>
    obtain ⟨c, head, hhead⟩ : ∃ c head, (Text.join ['/'] (n :: names)).reverse = c :: head := by
      refine List.exists_cons_of_ne_nil fun hnil => ?_
      have hcomponents := Path.components_join hnames
      rw [List.reverse_eq_nil_iff.1 hnil] at hcomponents
      cases hcomponents
    have hreverse : (Text.join ['/'] (n :: names ++ [name])).reverse =
        name.reverse ++ '/' :: (c :: head) := by
      rw [Text.join_append_singleton (by simp), ← hhead]
      simp
    rw [directory, hreverse, Text.cut?_char hslash, if_neg (by simp)]
    dsimp only
    rw [← hhead, List.reverse_reverse]

/-- **The directory part of the way to a file is the way to its directory.** -/
theorem Place.directory_relative {r p : Place} {name : Text} (hr : r.IsProper) (hp : p.IsProper)
    (hname : Path.IsProper name) (h : ¬ p ++ [name] <+: r) :
    Markdown.directory (Path.relative r.path (Place.path (p ++ [name]))) =
      Path.relative r.path p.path := by
  have hway : way r (p ++ [name]) = way r p ++ [name] := by
    rw [way, way, Path.dropCommon_concat h, List.append_assoc]
  rw [relative_path hr (hp.concat hname), relative_path hr hp, hway, if_neg (by simp)]
  exact Markdown.directory_join (fun n hn => isName_of_mem_way hp hn) hname.1

end CodeIndex
