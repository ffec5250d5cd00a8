import CodeIndex.FileTree.Resolve
import CodeIndex.Proofs.FileTree.Plain

/-!
# Paths in trees without links

In a plain tree a path leads where its components say. Whether it can be used at all depends on its
text only (`Path.Usable`); a usable path leads to the entry at the place of its components
(`locate_eq_entry_iff`, `stat_eq_ok_iff`), or to a name that its directory lacks
(`exists_of_locate_eq_missing`). What is answered about a path, errors included, depends only on the
faces on its way (`stat_congr`), and resolving a path does not look at the tree
(`resolve_of_isPlain`).
-/

namespace CodeIndex

/-! ## Places that lead down -/

namespace Place

theorem components_path {p : Place} (h : ∀ n ∈ p, Path.IsName n) : Path.components p.path = p :=
  (Path.components_cons_slash _).trans (Path.components_join h)

/-- The path to a place starts at the root directory. -/
theorem anchor_path {p : Place} (h : ∀ n ∈ p, Path.IsName n) : Path.anchor p.path = ['/'] := by
  simp [Path.anchor, path, Path.takeWhile_join h]

theorem ofComponents_path {p : Place} (h : ∀ n ∈ p, Path.IsName n) (q : Place) :
    Path.ofComponents (Path.anchor p.path) q = q.path := by
  rw [anchor_path h]
  rfl

/-- A path that leads on from a place leads to the place below it. -/
theorem append_path {p q : Place} (hp : ∀ n ∈ p, Path.IsName n) (hq : ∀ n ∈ q, Path.IsName n) :
    Path.append p.path q.relativePath = Place.path (p ++ q) := by
  rw [Path.append, relativePath, Path.isAbsolute_join hq, if_neg (by simp), ofComponents_path hp,
    components_path hp, Path.components_join hq]

theorem append_name {p : Place} (hp : ∀ n ∈ p, Path.IsName n) {name : Text}
    (hname : Path.IsName name) : Path.append p.path name = Place.path (p ++ [name]) := by
  have hrelative : relativePath [name] = name := Text.join_singleton ['/'] name
  rw [← append_path hp (List.forall_mem_singleton.2 hname), hrelative]

/-- The path to an entry of a place has no characters but theirs. -/
theorem any_path_append {f : Char → Bool} {p : Place} {name : Text} (hp : p.path.any f = false)
    (hname : name.any f = false) : (Place.path (p ++ [name])).any f = false := by
  cases p with
  | nil =>
    simp only [path, List.nil_append, Text.join_singleton, List.any_cons, Bool.or_eq_false_iff]
      at hp ⊢
    exact ⟨hp.1, hname⟩
  | cons n p =>
    rw [path, Text.join_append_singleton (by simp)]
    simp_all [path]

theorem normal_path {p : Place} (h : ∀ n ∈ p, Path.IsName n) : Path.normal p.path = p.path := by
  rw [Path.normal, ofComponents_path h, components_path h]

theorem IsProper.step {p : Place} (hp : p.IsProper) {name : Text} (hname : '/' ∉ name) :
    IsProper (p.step name) := by
  unfold Place.step
  split
  · exact hp
  · split
    · exact fun n hn => hp n (List.dropLast_subset p hn)
    · next hstay hback =>
      simp only [Bool.or_eq_true, decide_eq_true_eq, not_or] at hstay
      exact hp.concat ⟨⟨hstay.1, hstay.2, hname⟩, hback⟩

/-- The names that are left when the ways back are taken lead down. -/
theorem IsProper.foldl_step {p : Place} (hp : p.IsProper) {names : List Text}
    (hnames : ∀ n ∈ names, '/' ∉ n) : IsProper (names.foldl Place.step p) := by
  induction names generalizing p with
  | nil => exact hp
  | cons name names ih =>
    obtain ⟨hname, hnames⟩ := List.forall_mem_cons.1 hnames
    exact ih (hp.step hname) hnames

theorem foldl_step_of_isProper {names : List Text} (h : IsProper names) (p : Place) :
    names.foldl step p = p ++ names := by
  induction names generalizing p with
  | nil => simp
  | cons name names ih =>
    obtain ⟨hname, hnames⟩ := List.forall_mem_cons.1 h
    have hstep : p.step name = p ++ [name] := by
      simp [step, hname.1.1, hname.1.2.1, hname.2]
    rw [List.foldl_cons, hstep, ih hnames, List.append_assoc, List.singleton_append]

end Place

/-- The name leads down from a directory. -/
def Path.Descends (name : Text) : Prop := name ≠ [] ∧ name ≠ ['.'] ∧ name ≠ ['.', '.']

theorem Path.IsProper.descends {name : Text} (h : IsProper name) : Descends name :=
  ⟨h.1.1, h.1.2.1, h.2⟩

/-- The components of the path lead down. -/
def Path.IsDirect (path : Text) : Prop := Place.IsProper (Path.components path)

/-- The name is short enough for an entry. -/
def Path.IsShort (n : Text) : Prop := (Utf8.encode n).length ≤ maxNameSize

/-- The path can be used: it does not hold the character that ends paths, and neither it nor one of
its components is too long. -/
structure Path.Usable (path : Text) : Prop where
  noNull : path.any (· = '\x00') = false
  short : (Utf8.encode path).length ≤ maxPathSize
  shortNames : ∀ n ∈ Path.components path, Path.IsShort n

theorem Place.IsProper.isDirect_path {p : Place} (h : p.IsProper) : Path.IsDirect p.path := by
  rw [Path.IsDirect, components_path h.isName]
  exact h

namespace Entry

variable {tree tree' : Entry} {followLast : Bool} {links : Nat} {here names : Place} {path : Text}

/-! ## Walking down -/

/-- A name that does not lead down is a step on the spot or back. -/
theorem walk_cons_of_not_descends {name : Text} (hname : ¬ Path.Descends name) (rest : List Text) :
    tree.walk followLast links here (name :: rest) =
      match tree.faceAt here with
      | some .directory => tree.walk followLast links (here.step name) rest
      | _ => .error .notDirectory := by
  rw [walk]
  simp only [faceAt]
  cases hhere : tree.get? here with
  | none => rfl
  | some e =>
    cases e with
    | file bytes => rfl
    | link target => rfl
    | directory entries =>
      have hup : (name = [] || name = ['.'] || name = ['.', '.']) = true := by
        simpa [Path.Descends, or_iff_not_imp_left] using hname
      simp only [if_pos hup, Option.map_some, face]

/-- One step down looks at the faces of two places. -/
theorem walk_cons_of_descends {name : Text} (hname : Path.Descends name) (rest : List Text) :
    tree.walk followLast links here (name :: rest) =
      match tree.faceAt here with
      | some .directory =>
        if (Utf8.encode name).length > maxNameSize then .error .nameTooLong
        else
          match tree.faceAt (here ++ [name]) with
          | none => if rest = [] then .ok (.missing here name) else .error .notFound
          | some (.link target) =>
            if rest = [] && !followLast then .ok (.entry (here ++ [name]))
            else
              match links with
              | 0 => .error .tooManyLinks
              | links + 1 =>
                tree.walk followLast links (here.linkStart target)
                  (Text.splitChar '/' target ++ rest)
          | some _ => tree.walk followLast links (here ++ [name]) rest
      | _ => .error .notDirectory := by
  rw [walk]
  simp only [faceAt]
  cases hhere : tree.get? here with
  | none => rfl
  | some e =>
    cases e with
    | file bytes => rfl
    | link target => rfl
    | directory entries =>
      have hdown : ¬ (name = [] || name = ['.'] || name = ['.', '.']) = true := by
        simp [hname.1, hname.2.1, hname.2.2]
      simp only [if_neg hdown, get?_append_singleton hhere name, Option.map_some, face]
      cases lookup? name entries with
      | none => rfl
      | some e => cases e <;> rfl

/-- In a plain tree no step is a link. -/
theorem walk_cons (hplain : tree.isPlain = true) {name : Text} (hname : Path.IsProper name)
    (rest : List Text) :
    tree.walk followLast links here (name :: rest) =
      match tree.faceAt here with
      | some .directory =>
        if (Utf8.encode name).length > maxNameSize then .error .nameTooLong
        else
          match tree.faceAt (here ++ [name]) with
          | none => if rest = [] then .ok (.missing here name) else .error .notFound
          | some _ => tree.walk followLast links (here ++ [name]) rest
      | _ => .error .notDirectory := by
  rw [walk_cons_of_descends hname.descends]
  cases hface : tree.faceAt (here ++ [name]) with
  | none => rfl
  | some f =>
    cases f with
    | file bytes => rfl
    | directory => rfl
    | link target =>
      exact absurd (faceAt_eq_link.1 hface) (get?_ne_link hplain _ target)

/-- **Where a way leads in a plain tree depends only on the faces on it.** -/
theorem walk_congr (hplain : tree.isPlain = true) (hplain' : tree'.isPlain = true)
    (hnames : names.IsProper)
    (hfaces : ∀ q, q <+: here ++ names → tree'.faceAt q = tree.faceAt q) :
    tree'.walk followLast links here names = tree.walk followLast links here names := by
  induction names generalizing here with
  | nil => rw [walk, walk]
  | cons name rest ih =>
    obtain ⟨hname, hrest⟩ := List.forall_mem_cons.1 hnames
    have hstep : here ++ [name] ++ rest = here ++ name :: rest := by simp
    rw [walk_cons hplain hname, walk_cons hplain' hname, hfaces here (List.prefix_append ..),
      hfaces (here ++ [name]) (hstep ▸ List.prefix_append ..), ih hrest (hstep ▸ hfaces)]

theorem of_walk_eq_entry (hplain : tree.isPlain = true) (hnames : names.IsProper)
    (hhere : tree.faceAt here ≠ none) {q : Place}
    (h : tree.walk followLast links here names = .ok (.entry q)) :
    q = here ++ names ∧ tree.faceAt q ≠ none ∧ ∀ n ∈ names, Path.IsShort n := by
  induction names generalizing here with
  | nil =>
    obtain rfl : here = q := by simpa [walk] using h
    exact ⟨by simp, hhere, by simp⟩
  | cons n rest ih =>
    obtain ⟨hname, hrest⟩ := List.forall_mem_cons.1 hnames
    rw [walk_cons hplain hname] at h
    split at h
    · split at h
      · simp at h
      · next hshort =>
        split at h
        · split at h <;> simp at h
        · next hsome =>
          obtain ⟨hplace, hq, hshorts⟩ := ih hrest (by simp [hsome]) h
          exact ⟨by simpa using hplace, hq,
            List.forall_mem_cons.2 ⟨Nat.le_of_not_lt hshort, hshorts⟩⟩
    · simp at h

theorem walk_eq_entry (hplain : tree.isPlain = true) (hnames : names.IsProper)
    (hshort : ∀ n ∈ names, Path.IsShort n) {e : Entry} (h : tree.get? (here ++ names) = some e) :
    tree.walk followLast links here names = .ok (.entry (here ++ names)) := by
  induction names generalizing here with
  | nil => simp [walk]
  | cons n rest ih =>
    obtain ⟨hname, hrest⟩ := List.forall_mem_cons.1 hnames
    obtain ⟨hn, hshort⟩ := List.forall_mem_cons.1 hshort
    have hstep : here ++ [n] ++ rest = here ++ n :: rest := by simp
    have hdir : tree.faceAt here = some .directory :=
      faceAt_above (List.prefix_append ..) (by simp) h
    have hnext : tree.faceAt (here ++ [n]) ≠ none := by
      rw [← hstep, get?_append] at h
      obtain ⟨f, hf, -⟩ := Option.bind_eq_some_iff.1 h
      simp [faceAt, hf]
    obtain ⟨f, hf⟩ := Option.ne_none_iff_exists'.1 hnext
    rw [walk_cons hplain hname, hdir, hf]
    simp only [if_neg (Nat.not_lt.2 hn)]
    rw [ih hrest hshort (hstep ▸ h), hstep]

theorem exists_of_walk_eq_missing (hplain : tree.isPlain = true) (hnames : names.IsProper)
    {d : Place} {name : Text} (h : tree.walk followLast links here names = .ok (.missing d name)) :
    here ++ names = d ++ [name] ∧ tree.faceAt d = some .directory ∧
      tree.faceAt (d ++ [name]) = none ∧ ∀ n ∈ names, Path.IsShort n := by
  induction names generalizing here with
  | nil => simp [walk] at h
  | cons n rest ih =>
    obtain ⟨hname, hrest⟩ := List.forall_mem_cons.1 hnames
    rw [walk_cons hplain hname] at h
    split at h
    · next hdir =>
      split at h
      · simp at h
      · next hshort =>
        split at h
        · next hnone =>
          split at h
          · next hlast =>
            subst hlast
            obtain ⟨rfl, rfl⟩ : here = d ∧ n = name := by simpa using h
            exact ⟨rfl, hdir, hnone, by simpa [Path.IsShort] using hshort⟩
          · simp at h
        · obtain ⟨hplace, hd, hnone, hshorts⟩ := ih hrest h
          exact ⟨by simpa using hplace, hd, hnone,
            List.forall_mem_cons.2 ⟨Nat.le_of_not_lt hshort, hshorts⟩⟩
    · simp at h

/-- A way without links does not meet too many. -/
theorem walk_ne_tooManyLinks (hplain : tree.isPlain = true) (hnames : names.IsProper) :
    tree.walk followLast links here names ≠ .error .tooManyLinks := by
  induction names generalizing here with
  | nil => simp [walk]
  | cons n rest ih =>
    obtain ⟨hname, hrest⟩ := List.forall_mem_cons.1 hnames
    rw [walk_cons hplain hname]
    split
    · split
      · simp
      · split
        · split <;> simp
        · exact ih hrest
    · simp

/-! ## Where a path leads -/

theorem locate_eq_ok_iff {target : Target} :
    tree.locate followLast path = .ok target ↔ path.any (· = '\x00') = false ∧
      (Utf8.encode path).length ≤ maxPathSize ∧
        tree.walk followLast maxLinks [] (Path.components path) = .ok target := by
  unfold locate
  split
  · next hnull => simp [hnull]
  · next hnull =>
    split
    · next hlong => simp [Nat.not_le.2 hlong]
    · next hshort =>
      simp only [Bool.not_eq_true] at hnull
      simp only [hnull, Nat.le_of_not_lt hshort, true_and]
      split <;> simp_all

theorem locate_eq_entry_iff (hplain : tree.isPlain = true) (hpath : Path.IsDirect path)
    {q : Place} : tree.locate followLast path = .ok (.entry q) ↔
      Path.Usable path ∧ q = Path.components path ∧ tree.faceAt q ≠ none := by
  rw [locate_eq_ok_iff]
  constructor
  · rintro ⟨hnull, hlength, hwalk⟩
    obtain ⟨hplace, hq, hshort⟩ := of_walk_eq_entry hplain hpath (by simp [faceAt, get?]) hwalk
    exact ⟨⟨hnull, hlength, hshort⟩, hplace, hq⟩
  · rintro ⟨⟨hnull, hlength, hshort⟩, rfl, hq⟩
    obtain ⟨e, he⟩ := Option.ne_none_iff_exists'.1 (mt faceAt_eq_none.2 hq)
    exact ⟨hnull, hlength, walk_eq_entry hplain hpath hshort he⟩

theorem exists_of_locate_eq_missing (hplain : tree.isPlain = true) (hpath : Path.IsDirect path)
    {d : Place} {name : Text} (h : tree.locate followLast path = .ok (.missing d name)) :
    Path.Usable path ∧ Path.components path = d ++ [name] ∧ tree.faceAt d = some .directory ∧
      tree.faceAt (d ++ [name]) = none := by
  obtain ⟨hnull, hlength, hwalk⟩ := locate_eq_ok_iff.1 h
  obtain ⟨hplace, hd, hnone, hshort⟩ := exists_of_walk_eq_missing hplain hpath hwalk
  exact ⟨⟨hnull, hlength, hshort⟩, hplace, hd, hnone⟩

/-- **A usable path leads to the entry at the place of its components.** -/
theorem stat_eq_ok_iff (hplain : tree.isPlain = true) (hpath : Path.IsDirect path) {e : Entry} :
    tree.stat path = .ok e ↔ Path.Usable path ∧ tree.get? (Path.components path) = some e := by
  constructor
  · intro h
    simp only [stat, bind, Except.bind] at h
    split at h
    · simp at h
    · next target htarget =>
      split at h
      · simp [throw, throwThe, MonadExceptOf.throw] at h
      · next q =>
        obtain ⟨husable, rfl, -⟩ := (locate_eq_entry_iff hplain hpath).1 htarget
        refine ⟨husable, ?_⟩
        split at h
        · next f hf => simp_all [pure, Except.pure]
        · simp [throw, throwThe, MonadExceptOf.throw] at h
  · rintro ⟨husable, he⟩
    have hlocate : tree.locate true path = .ok (.entry (Path.components path)) :=
      (locate_eq_entry_iff hplain hpath).2 ⟨husable, rfl, by simp [faceAt, he]⟩
    simp only [stat, hlocate, bind, Except.bind, he]
    rfl

theorem pathExists_iff_stat : tree.pathExists path = .ok true ↔ ∃ e, tree.stat path = .ok e := by
  simp only [pathExists, stat?]
  cases tree.stat path with
  | error err => by_cases hlong : err.cause = .nameTooLong <;> simp [hlong, Functor.map, Except.map]
  | ok e => simp [Functor.map, Except.map]

theorem pathExists_eq_true_iff (hplain : tree.isPlain = true) (hpath : Path.IsDirect path) :
    tree.pathExists path = .ok true ↔
      Path.Usable path ∧ tree.faceAt (Path.components path) ≠ none := by
  simp only [pathExists_iff_stat, stat_eq_ok_iff hplain hpath, ne_eq, faceAt_eq_none,
    exists_and_left, ← Option.ne_none_iff_exists']

theorem pathIsDirectory_eq_true_iff (hplain : tree.isPlain = true) (hpath : Path.IsDirect path) :
    tree.pathIsDirectory path = .ok true ↔
      Path.Usable path ∧ tree.faceAt (Path.components path) = some .directory := by
  have hstat : tree.pathIsDirectory path = .ok true ↔
      ∃ entries, tree.stat path = .ok (directory entries) := by
    simp only [pathIsDirectory, stat?]
    cases tree.stat path with
    | error err =>
      by_cases hlong : err.cause = .nameTooLong <;> simp [hlong, Functor.map, Except.map]
    | ok e => cases e <;> simp [Functor.map, Except.map, isDirectory]
  simp only [hstat, stat_eq_ok_iff hplain hpath, faceAt_eq_directory, exists_and_left]

/-! ## Two trees with the same faces on a way -/

/-- The path leads down, and two plain trees have the same faces on its way. -/
structure SameWay (tree tree' : Entry) (path : Text) : Prop where
  direct : Path.IsDirect path
  faces : ∀ q, q <+: Path.components path → tree'.faceAt q = tree.faceAt q

section SameWay

variable (hplain : tree.isPlain = true) (hplain' : tree'.isPlain = true)
  (h : SameWay tree tree' path)
include hplain hplain' h

theorem locate_congr : tree'.locate followLast path = tree.locate followLast path := by
  rw [locate, locate, walk_congr hplain hplain' h.direct (by simpa using h.faces)]

/-- **Both trees give the same error, or entries with the same face.** -/
theorem stat_congr : (∃ err, tree.stat path = .error err ∧ tree'.stat path = .error err) ∨
    ∃ e e', tree.stat path = .ok e ∧ tree'.stat path = .ok e' ∧ e'.face = e.face := by
  simp only [stat, bind, Except.bind, locate_congr hplain hplain' h]
  cases htarget : tree.locate true path with
  | error err => exact .inl ⟨err, rfl, rfl⟩
  | ok target =>
    cases target with
    | missing d name => exact .inl ⟨⟨.notFound, path⟩, rfl, rfl⟩
    | entry q =>
      obtain ⟨-, rfl, hsome⟩ := (locate_eq_entry_iff hplain h.direct).1 htarget
      have hface := h.faces _ List.prefix_rfl
      obtain ⟨e, he⟩ := Option.ne_none_iff_exists'.1 (mt faceAt_eq_none.2 hsome)
      rw [faceAt, faceAt, he, Option.map_some] at hface
      obtain ⟨e', he', hface⟩ := Option.map_eq_some_iff.1 hface
      exact .inr ⟨e, e', by simp only [he]; rfl, by simp only [he']; rfl, hface⟩

theorem pathExists_congr : tree'.pathExists path = tree.pathExists path := by
  obtain ⟨err, he, he'⟩ | ⟨e, e', he, he', -⟩ := stat_congr hplain hplain' h
  · simp only [pathExists, stat?, he, he']
  · simp only [pathExists, stat?, he, he']
    rfl

theorem readFile_congr : tree'.readFile path = tree.readFile path := by
  obtain ⟨err, he, he'⟩ | ⟨e, e', he, he', hface⟩ := stat_congr hplain hplain' h
  · simp only [readFile, he, he']
  · simp only [readFile, he, he', bind, Except.bind]
    cases e <;> cases e' <;> simp_all [face]

end SameWay

/-! ## Paths without links and ways back -/

theorem followLinks_of_isPlain (hplain : tree.isPlain = true) (budget : Nat) (busy : List Place)
    (here : Place) (names : List Text) :
    tree.followLinks budget busy here names = (names.foldl Place.step here, true) := by
  induction names generalizing here with
  | nil => rw [followLinks]; rfl
  | cons name rest ih =>
    rw [followLinks]
    split
    · exact ih _
    · next hdown =>
      have hstep : here.step name = here ++ [name] := by
        simp only [Bool.or_eq_true, decide_eq_true_eq, not_or] at hdown
        simp [Place.step, hdown]
      split
      · next target htarget => exact absurd htarget (get?_ne_link hplain _ target)
      · rw [ih, List.foldl_cons, hstep]

theorem stat_ne_tooManyLinks (hplain : tree.isPlain = true) (hpath : Path.IsDirect path)
    (p : Text) : tree.stat path ≠ .error ⟨.tooManyLinks, p⟩ := by
  have hlocate : tree.locate true path ≠ .error ⟨.tooManyLinks, p⟩ := by
    unfold locate
    split
    · simp
    · split
      · simp
      · have hwalk : tree.walk true maxLinks [] (Path.components path) ≠ .error .tooManyLinks :=
          walk_ne_tooManyLinks hplain hpath
        split <;> simp_all
  intro h
  simp only [stat, bind, Except.bind] at h
  split at h
  · next err herr =>
    obtain rfl : err = ⟨.tooManyLinks, p⟩ := by simpa using h
    exact hlocate herr
  · split at h
    · simp [throw, throwThe, MonadExceptOf.throw] at h
    · split at h
      · simp [pure, Except.pure] at h
      · simp [throw, throwThe, MonadExceptOf.throw] at h

/-- **Resolving a path does not look at a plain tree.** -/
theorem resolve_of_isPlain (hplain : tree.isPlain = true) (path : Text) :
    tree.resolve path = if path.any (· = '\x00') then .error (.nullByte path)
      else .ok (Place.path ((Path.components path).foldl Place.step [])) := by
  have hproper : Place.IsProper ((Path.components path).foldl Place.step []) :=
    Place.IsProper.foldl_step (by simp [Place.IsProper]) fun n hn =>
      (Path.isName_of_mem_components hn).2.2
  rw [resolve]
  split
  · rfl
  · rw [followLinks_of_isPlain hplain]
    dsimp only
    split
    · next p hp => exact absurd hp (stat_ne_tooManyLinks hplain hproper.isDirect_path p)
    · rfl

/-- The path to a place is resolved. -/
theorem resolve_path (hplain : tree.isPlain = true) {p : Place} (hproper : p.IsProper)
    (hnull : p.path.any (· = '\x00') = false) : tree.resolve p.path = .ok p.path := by
  rw [resolve_of_isPlain hplain, hnull, Place.components_path hproper.isName,
    Place.foldl_step_of_isProper hproper]
  rfl

end Entry

end CodeIndex
