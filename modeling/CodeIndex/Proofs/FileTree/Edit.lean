import CodeIndex.Failure
import CodeIndex.Proofs.FileTree.Resolve

/-!
# What an edit changes

`Grown files dirs tree tree'` bounds the difference between two trees: files may be new or have
other bytes at the places `files`, directories may be new at the places `dirs`, and nothing else is
different. The relation is a preorder, and each edit that succeeds stays within it: `writeFile_runs`
for one file, `makeDirectories_runs` for a directory and those above it. An edit whose effect is
there already changes nothing (`runs_writeFile_self`, `runs_makeDirectories_self`).
-/

namespace CodeIndex

/-! ## Trees that grow -/

namespace Entry

/-- The second tree has the entries of the first, except for other bytes in `files`, new files
there, and new directories at `dirs`. -/
structure Grown (files dirs : Place → Prop) (tree tree' : Entry) : Prop where
  plain : tree.isPlain = true → tree'.isPlain = true
  faces : ∀ q, ¬ files q → tree'.faceAt q = tree.faceAt q ∨
    (dirs q ∧ tree.faceAt q = none ∧ tree'.faceAt q = some .directory)
  directories : ∀ q, tree.faceAt q = some .directory → tree'.faceAt q = some .directory
  /-- Where nothing is written at or below a place, the whole entry stays. -/
  untouched : ∀ q e, (∀ w, files w ∨ dirs w → ¬ q <+: w) → tree.get? q = some e →
    tree'.get? q = some e

namespace Grown

variable {files files' dirs dirs' : Place → Prop} {tree tree' tree'' new : Entry}

theorem refl (tree : Entry) : Grown files dirs tree tree :=
  ⟨id, fun _ _ => .inl rfl, fun _ => id, fun _ _ _ => id⟩

theorem mono (h : Grown files dirs tree tree') (hfiles : ∀ q, files q → files' q)
    (hdirs : ∀ q, dirs q → dirs' q) : Grown files' dirs' tree tree' where
  plain := h.plain
  faces q hq := (h.faces q fun hf => hq (hfiles q hf)).imp_right fun ⟨hd, hfaces⟩ =>
    ⟨hdirs q hd, hfaces⟩
  directories := h.directories
  untouched q e hw := h.untouched q e fun w hf => hw w (hf.imp (hfiles w) (hdirs w))

theorem trans (h : Grown files dirs tree tree') (h' : Grown files dirs tree' tree'') :
    Grown files dirs tree tree'' where
  plain := h'.plain ∘ h.plain
  faces q hq := by
    rcases h'.faces q hq with heq | ⟨hd, hnone, hdir⟩
    · rw [heq]
      exact h.faces q hq
    · rcases h.faces q hq with heq | ⟨-, -, hdir'⟩
      · exact .inr ⟨hd, heq ▸ hnone, hdir⟩
      · exact absurd hnone (by simp [hdir'])
  directories q hq := h'.directories q (h.directories q hq)
  untouched q e hw he := h'.untouched q e hw (h.untouched q e hw he)

/-- A face that is there stays, unless a file is written over it. -/
theorem face_eq (h : Grown files dirs tree tree') {q : Place} (hf : ¬ files q)
    (hq : dirs q → tree.faceAt q ≠ none) : tree'.faceAt q = tree.faceAt q := by
  rcases h.faces q hf with heq | ⟨hd, hnone, -⟩
  · exact heq
  · exact absurd hnone (hq hd)

variable {here : Place} {name : Text}

/-- A leaf over nothing or another leaf. -/
theorem put {entries : List (Text × Entry)} (hdir : tree.get? here = some (directory entries))
    (hold : ∀ e, tree.get? (here ++ [name]) = some e → e.IsLeaf) (hnew : new.IsLeaf)
    (hname : Path.IsProper name) (hplain : new.isPlain = true)
    (hat : files (here ++ [name]) ∨
      (dirs (here ++ [name]) ∧ tree.faceAt (here ++ [name]) = none ∧ new.face = .directory))
    (hkept : tree.faceAt (here ++ [name]) ≠ some .directory) :
    Grown files dirs tree (tree.put (here ++ [name]) new) where
  plain htree := isPlain_put hdir htree hplain hname
  faces q hq := by
    rw [faceAt_put hdir hold hnew]
    split
    · next heq =>
      subst heq
      obtain ⟨hd, hnone, hface⟩ := hat.resolve_left hq
      exact .inr ⟨hd, hnone, by rw [hface]⟩
    · exact .inl rfl
  directories q hq := by
    rw [faceAt_put hdir hold hnew, if_neg, hq]
    rintro rfl
    exact hkept hq
  untouched q e hw he := get?_put_leaf hdir hold (hw _ (hat.imp_right (·.1))) he

end Grown

end Entry

namespace Edit

open Entry (Grown)

/-! ## Runs -/

variable {ε α β : Type} {tree tree' : Entry}

@[simp] theorem run_pure (a : α) (tree : Entry) : (pure a : Edit ε α).run tree = (.ok a, tree) :=
  rfl

@[simp] theorem run_get (tree : Entry) : (get : Edit ε Entry).run tree = (.ok tree, tree) := rfl

theorem run_bind (x : Edit ε α) (f : α → Edit ε β) (tree : Entry) :
    (x >>= f).run tree = match x.run tree with
      | (.ok a, mid) => (f a).run mid
      | (.error e, mid) => (.error e, mid) := by
  unfold ExceptT.run
  simp only [bind, ExceptT.bind, ExceptT.mk, StateT.bind, ExceptT.bindCont]
  cases x tree with
  | mk result mid => cases result <;> rfl

theorem run_tryCatch (x : Edit ε α) (handler : ε → Edit ε α) (tree : Entry) :
    (tryCatch x handler).run tree = match x.run tree with
      | (.ok a, mid) => (.ok a, mid)
      | (.error e, mid) => (handler e).run mid := by
  unfold ExceptT.run
  simp only [tryCatch, tryCatchThe, MonadExceptOf.tryCatch, ExceptT.tryCatch, ExceptT.mk, bind,
    StateT.bind]
  cases x tree with
  | mk result mid => cases result <;> rfl

theorem run_ask (question : Entry → Except FileError α) (tree : Entry) :
    (ask question).run tree = (question tree, tree) := by
  simp only [ask, run_bind, run_get]
  cases question tree <;> rfl

theorem run_lift (x : FileEdit α) (tree : Entry) :
    x.lift.run tree = ((x.run tree).1.mapError Failure.file, (x.run tree).2) := rfl

@[simp] theorem lift_pure (a : α) : (pure a : FileEdit α).lift = pure a := rfl

/-- The edit succeeds on a tree, with a result and a tree that it leaves. -/
def Runs (x : Edit ε α) (tree : Entry) (a : α) (tree' : Entry) : Prop :=
  @Eq (Except ε α × Entry) (x.run tree) (.ok a, tree')

theorem runs_bind {x : Edit ε α} {f : α → Edit ε β} {b : β} :
    Runs (x >>= f) tree b tree' ↔ ∃ a mid, Runs x tree a mid ∧ Runs (f a) mid b tree' := by
  simp only [Runs, run_bind]
  obtain ⟨e | a, mid⟩ := x.run tree
  · simp
  · simp

theorem runs_pure {a b : α} : Runs (pure a : Edit ε α) tree b tree' ↔ a = b ∧ tree = tree' := by
  simp [Runs]

theorem not_runs_throw {e : ε} {a : α} : ¬ Runs (throw e : Edit ε α) tree a tree' := nofun

theorem runs_ask {question : Entry → Except FileError α} {a : α} :
    Runs (ask question) tree a tree' ↔ question tree = .ok a ∧ tree = tree' := by
  simp [Runs, run_ask]

theorem runs_lift {x : FileEdit α} {a : α} : Runs x.lift tree a tree' ↔ Runs x tree a tree' := by
  simp only [Runs, run_lift]
  obtain ⟨e | b, mid⟩ := x.run tree
  · simp [Except.mapError]
  · simp [Except.mapError]

/-! ## Writing a file -/

theorem run_updateFile (path : Text) (write : List UInt8 → List UInt8) (tree : Entry) :
    (updateFile path write).run tree = match tree.locate true path with
      | .error e => (.error e, tree)
      | .ok (.missing d name) => (.ok (), tree.put (d ++ [name]) (.file (write [])))
      | .ok (.entry q) =>
        match tree.get? q with
        | some (.file bytes) => (.ok (), tree.put q (.file (write bytes)))
        | _ => (.error ⟨.isDirectory, path⟩, tree) := by
  simp only [updateFile, run_bind, run_ask]
  cases tree.locate true path with
  | error e => rfl
  | ok target =>
    cases target with
    | missing d name => rfl
    | entry q =>
      simp only [run_bind, run_get]
      rcases tree.get? q with - | ⟨bytes | entries | target⟩ <;> rfl

variable {path : Text} {bytes : List UInt8} {here : Place} {name : Text}

theorem grown_put_file (hname : Path.IsProper name) (hdir : tree.faceAt here = some .directory)
    (hold : tree.faceAt (here ++ [name]) = none ∨
      ∃ old, tree.faceAt (here ++ [name]) = some (.file old)) :
    Grown (· = here ++ [name]) (fun _ => False) tree (tree.put (here ++ [name]) (.file bytes)) ∧
      (tree.put (here ++ [name]) (.file bytes)).faceAt (here ++ [name]) = some (.file bytes) := by
  obtain ⟨entries, hdir⟩ := Entry.faceAt_eq_directory.1 hdir
  have hleaf : ∀ e, tree.get? (here ++ [name]) = some e → e.IsLeaf := by
    intro e he
    rcases hold with hnone | ⟨old, hold⟩
    · rw [Entry.faceAt_eq_none.1 hnone] at he
      simp at he
    · rw [Entry.faceAt_eq_file.1 hold] at he
      obtain rfl := Option.some.inj he
      exact Entry.isLeaf_file old
  constructor
  · refine .put hdir hleaf (Entry.isLeaf_file bytes) hname rfl (.inl rfl) ?_
    rcases hold with hold | ⟨old, hold⟩ <;> simp [hold]
  · rw [Entry.faceAt_put hdir hleaf (Entry.isLeaf_file bytes), if_pos rfl]
    rfl

/-- **A file that is written is there afterwards, and nothing else has changed.** -/
theorem writeFile_runs (hplain : tree.isPlain = true) (hpath : Path.IsDirect path)
    (hplace : Path.components path = here ++ [name]) {u : Unit}
    (h : Runs (writeFile path bytes) tree u tree') :
    Path.Usable path ∧ Grown (· = here ++ [name]) (fun _ => False) tree tree' ∧
      tree'.faceAt (here ++ [name]) = some (.file bytes) := by
  have hname : Path.IsProper name := hpath name (by simp [hplace])
  rw [Runs, writeFile, run_updateFile] at h
  split at h
  · simp at h
  · next d n hmissing =>
    obtain ⟨husable, hcomponents, hdir, hnone⟩ :=
      Entry.exists_of_locate_eq_missing hplain hpath hmissing
    obtain ⟨rfl, rfl⟩ : here = d ∧ name = n := by simpa using hplace.symm.trans hcomponents
    obtain rfl : tree.put (here ++ [name]) (.file bytes) = tree' := by simpa using h
    exact ⟨husable, grown_put_file hname hdir (.inl hnone)⟩
  · next q hentry =>
    obtain ⟨husable, hq, -⟩ := (Entry.locate_eq_entry_iff hplain hpath).1 hentry
    obtain rfl : q = here ++ [name] := hq.trans hplace
    split at h
    · next old hold =>
      obtain rfl : tree.put (here ++ [name]) (.file bytes) = tree' := by simpa using h
      have hdir := Entry.faceAt_above (List.prefix_append here [name]) (by simp) hold
      exact ⟨husable, grown_put_file hname hdir (.inr ⟨old, Entry.faceAt_eq_file.2 hold⟩)⟩
    · simp at h

/-- A file that has the bytes already stays as it is, and so does the tree. -/
theorem runs_writeFile_self (hplain : tree.isPlain = true) (hpath : Path.IsDirect path)
    (husable : Path.Usable path) (h : tree.faceAt (Path.components path) = some (.file bytes)) :
    Runs (writeFile path bytes) tree () tree := by
  have hentry : tree.locate true path = .ok (.entry (Path.components path)) :=
    (Entry.locate_eq_entry_iff hplain hpath).2 ⟨husable, rfl, by simp [h]⟩
  have hfile := Entry.faceAt_eq_file.1 h
  simp only [Runs, writeFile, run_updateFile, hentry, hfile, Entry.put_self hfile]

/-! ## Making directories -/

theorem run_makeDirectory (path : Text) (tree : Entry) :
    (makeDirectory path).run tree = match tree.locate false path with
      | .error e => (.error e, tree)
      | .ok (.missing d name) => (.ok (), tree.put (d ++ [name]) (.directory []))
      | .ok (.entry _) => (.error ⟨.alreadyExists, path⟩, tree) := by
  simp only [makeDirectory, make, run_bind, run_ask]
  cases tree.locate false path with
  | error e => rfl
  | ok target => cases target <;> rfl

/-- **A directory that is made is there afterwards, and nothing else has changed.** -/
theorem makeDirectory_runs (hplain : tree.isPlain = true) (hpath : Path.IsDirect path) {u : Unit}
    (h : Runs (makeDirectory path) tree u tree') :
    Path.Usable path ∧ Grown (fun _ => False) (· = Path.components path) tree tree' ∧
      tree'.faceAt (Path.components path) = some .directory := by
  rw [Runs, run_makeDirectory] at h
  split at h
  · simp at h
  · next d name hmissing =>
    obtain ⟨husable, hplace, hdir, hnone⟩ := Entry.exists_of_locate_eq_missing hplain hpath hmissing
    obtain rfl : tree.put (d ++ [name]) (.directory []) = tree' := by simpa using h
    obtain ⟨entries, hdir⟩ := Entry.faceAt_eq_directory.1 hdir
    have hnothing : ∀ e, tree.get? (d ++ [name]) = some e → e.IsLeaf := by
      simp [Entry.faceAt_eq_none.1 hnone]
    have hname : Path.IsProper name := hpath name (by simp [hplace])
    rw [hplace]
    refine ⟨husable, ?_, ?_⟩
    · exact .put hdir hnothing Entry.isLeaf_directory hname rfl (.inr ⟨rfl, hnone, rfl⟩)
        (by simp [hnone])
    · rw [Entry.faceAt_put hdir hnothing Entry.isLeaf_directory, if_pos rfl]
      rfl
  · simp at h

/-- An attempt to make a directory succeeds, or what follows an error goes on from the same tree. -/
theorem tryCatch_makeDirectory_runs {handler : FileError → FileEdit Unit} {u : Unit}
    (h : Runs (tryCatch (makeDirectory path) handler) tree u tree') :
    Runs (makeDirectory path) tree u tree' ∨ ∃ e, Runs (handler e) tree u tree' := by
  rw [Runs, run_tryCatch] at h
  rw [Runs]
  split at h
  · next heq => exact .inl (heq.trans h)
  · next e mid heq =>
    obtain rfl : mid = tree := by
      rw [run_makeDirectory] at heq
      split at heq <;> cases heq <;> rfl
    exact .inr ⟨e, h⟩

/-- The directory to which a path leads is there already. -/
def recheck (path : Text) (e : FileError) : FileEdit Unit := do
  unless ← ask (·.pathIsDirectory path) do throw e

theorem recheck_runs {e : FileError} {u : Unit} (h : Runs (recheck path e) tree u tree') :
    tree' = tree ∧ tree.pathIsDirectory path = .ok true := by
  obtain ⟨isDirectory, mid, hask, h⟩ := runs_bind.1 h
  obtain ⟨hanswer, rfl⟩ := runs_ask.1 hask
  cases isDirectory with
  | false => cases h
  | true =>
    obtain ⟨-, rfl⟩ := runs_pure.1 h
    exact ⟨rfl, hanswer⟩

theorem makeDirectoriesAt_cons (anchor name : Text) (above : List Text) :
    makeDirectoriesAt anchor (name :: above) =
      tryCatch (makeDirectory (Path.ofComponents anchor (name :: above).reverse)) fun e =>
        if e.cause = .notFound then do
          makeDirectoriesAt anchor above
          tryCatch (makeDirectory (Path.ofComponents anchor (name :: above).reverse)) fun e =>
            if e.cause = .notFound then throw e
            else recheck (Path.ofComponents anchor (name :: above).reverse) e
        else recheck (Path.ofComponents anchor (name :: above).reverse) e := rfl

theorem makeDirectoriesAt_runs (hplain : tree.isPlain = true) {reversed : Place}
    (hnames : reversed.IsProper) {given : Text} {u : Unit}
    (h : Runs (makeDirectoriesAt (Path.anchor given) reversed) tree u tree') :
    Grown (fun _ => False) (· <+: reversed.reverse) tree tree' ∧ (reversed ≠ [] →
      Path.Usable (Path.ofComponents (Path.anchor given) reversed.reverse) ∧
        tree'.faceAt reversed.reverse = some .directory) := by
  induction reversed generalizing tree' with
  | nil =>
    obtain ⟨-, rfl⟩ := runs_pure.1 h
    exact ⟨.refl tree, by simp⟩
  | cons name above ih =>
    obtain ⟨hname, habove⟩ := List.forall_mem_cons.1 hnames
    set place := (name :: above).reverse with hplace
    set path := Path.ofComponents (Path.anchor given) place
    have hproper : Place.IsProper place := by
      simpa only [Place.IsProper, hplace, List.mem_reverse] using hnames
    have hcomponents : Path.components path = place := Path.components_ofComponents hproper.isName
    have hpath : Path.IsDirect path := by rwa [Path.IsDirect, hcomponents]
    -- The last step makes the directory or finds it, whatever was made above it.
    have last {mid : Entry} (hmid : Grown (fun _ => False) (· <+: place) tree mid)
        (h : Runs (makeDirectory path) mid u tree' ∨ ∃ e, Runs (recheck path e) mid u tree') :
        Grown (fun _ => False) (· <+: place) tree tree' ∧ (name :: above ≠ [] →
          Path.Usable path ∧ tree'.faceAt place = some .directory) := by
      rcases h with h | ⟨e, h⟩
      · obtain ⟨husable, hgrown, hface⟩ := makeDirectory_runs (hmid.plain hplain) hpath h
        rw [hcomponents] at hgrown hface
        exact ⟨hmid.trans (hgrown.mono (fun _ => id) fun q hq => hq ▸ List.prefix_rfl),
          fun _ => ⟨husable, hface⟩⟩
      · obtain ⟨rfl, hdir⟩ := recheck_runs h
        rw [Entry.pathIsDirectory_eq_true_iff (hmid.plain hplain) hpath, hcomponents] at hdir
        exact ⟨hmid, fun _ => hdir⟩
    rw [makeDirectoriesAt_cons] at h
    rcases tryCatch_makeDirectory_runs h with h | ⟨e, h⟩
    · exact last (.refl tree) (.inl h)
    · split at h
      · obtain ⟨v, mid, hmid, h⟩ := runs_bind.1 h
        have hbegins : above.reverse <+: place := by simp [hplace]
        have hgrown := (ih habove hmid).1.mono (fun _ => id) fun q hq => hq.trans hbegins
        rcases tryCatch_makeDirectory_runs h with h | ⟨e, h⟩
        · exact last hgrown (.inl h)
        · split at h
          · cases h
          · exact last hgrown (.inr ⟨e, h⟩)
      · exact last (.refl tree) (.inr ⟨e, h⟩)

/-- **A directory and those above it are there afterwards, and nothing else has changed.** -/
theorem makeDirectories_runs (hplain : tree.isPlain = true) (hpath : Path.IsDirect path) {u : Unit}
    (h : Runs (makeDirectories path) tree u tree') :
    Grown (fun _ => False) (· <+: Path.components path) tree tree' ∧ (Path.components path ≠ [] →
      Path.Usable (Path.normal path) ∧ tree'.faceAt (Path.components path) = some .directory) := by
  have := makeDirectoriesAt_runs hplain (fun n hn => hpath n (List.mem_reverse.1 hn)) h
  simpa only [List.reverse_reverse, ne_eq, List.reverse_eq_nil_iff, Path.normal] using this

/-- Where the path leads to a directory already, the tree stays as it is. -/
theorem runs_makeDirectories_of_entry {q : Place}
    (hentry : tree.locate false (Path.normal path) = .ok (.entry q))
    (hdirectory : tree.pathIsDirectory (Path.normal path) = .ok true) :
    Runs (makeDirectories path) tree () tree := by
  rw [makeDirectories]
  cases hreversed : (Path.components path).reverse with
  | nil => rfl
  | cons name above =>
    have hplace : (name :: above).reverse = Path.components path := by
      rw [← hreversed, List.reverse_reverse]
    rw [makeDirectoriesAt_cons, hplace, ← Path.normal]
    have hrecheck (e : FileError) : (recheck (Path.normal path) e).run tree = (.ok (), tree) := by
      simp only [recheck, run_bind, run_ask, hdirectory]
      rfl
    simp only [Runs, run_tryCatch, run_makeDirectory, hentry]
    exact hrecheck _

theorem runs_makeDirectories_self (hplain : tree.isPlain = true) (hpath : Path.IsDirect path)
    (h : Path.components path ≠ [] →
      Path.Usable (Path.normal path) ∧ tree.faceAt (Path.components path) = some .directory) :
    Runs (makeDirectories path) tree () tree := by
  by_cases hempty : Path.components path = []
  · rw [makeDirectories, hempty]
    rfl
  · have hcomponents : Path.components (Path.normal path) = Path.components path :=
      Path.components_ofComponents fun n hn => Path.isName_of_mem_components hn
    have hnormal : Path.IsDirect (Path.normal path) := by rwa [Path.IsDirect, hcomponents]
    obtain ⟨husable, hdir⟩ := h hempty
    have hentry : tree.locate false (Path.normal path) = .ok (.entry (Path.components path)) :=
      (Entry.locate_eq_entry_iff hplain hnormal).2 ⟨husable, hcomponents.symm, by simp [hdir]⟩
    have hdirectory : tree.pathIsDirectory (Path.normal path) = .ok true :=
      (Entry.pathIsDirectory_eq_true_iff hplain hnormal).2 ⟨husable, by rwa [hcomponents]⟩
    exact runs_makeDirectories_of_entry hentry hdirectory

end Edit

end CodeIndex
