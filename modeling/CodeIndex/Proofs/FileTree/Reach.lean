import CodeIndex.Proofs.FileTree.Edit

/-!
# Where paths lead in a tree with links

`Leads` describes a walk along some names step by step, links included; a walk succeeds exactly when
it leads somewhere (`walk_eq_ok_iff`). A tree that keeps the directories and the links of another
one leads all walks to the same entries (`Leads.keeps`), and the last name of a walk is looked up
where the names before it lead (`Leads.concat`).

An edit that succeeds or fails leaves a tree. `Edit.Touches paths` bounds what it can do to any tree
at all: directories and links stay, and a file is new or different only where one of the paths
leads.
-/

namespace CodeIndex

/-- The place of a target, whether there is an entry or not. -/
def Target.place : Target → Place
  | .entry q => q
  | .missing d name => d ++ [name]

namespace Entry

/-! ## Walks -/

/-- The way along some names from a directory leads to a target, with a number of links that may be
followed. A link under the last name is followed if `followLast` holds. -/
inductive Leads (tree : Entry) (followLast : Bool) : Nat → Place → List Text → Target → Prop
  | here (links : Nat) (here : Place) : Leads tree followLast links here [] (.entry here)
  | stay {links : Nat} {here : Place} {name : Text} {rest : List Text} {target : Target}
      (hdir : tree.faceAt here = some .directory) (hname : ¬ Path.Descends name)
      (hrest : Leads tree followLast links (here.step name) rest target) :
      Leads tree followLast links here (name :: rest) target
  | missing {links : Nat} {here : Place} {name : Text} (hdir : tree.faceAt here = some .directory)
      (hname : Path.Descends name) (hshort : Path.IsShort name)
      (hnone : tree.faceAt (here ++ [name]) = none) :
      Leads tree followLast links here [name] (.missing here name)
  | link {links : Nat} {here : Place} {name text : Text} (hdir : tree.faceAt here = some .directory)
      (hname : Path.Descends name) (hshort : Path.IsShort name)
      (hlink : tree.faceAt (here ++ [name]) = some (.link text)) (hlast : followLast = false) :
      Leads tree followLast links here [name] (.entry (here ++ [name]))
  | follow {links : Nat} {here : Place} {name text : Text} {rest : List Text} {target : Target}
      (hdir : tree.faceAt here = some .directory) (hname : Path.Descends name)
      (hshort : Path.IsShort name) (hlink : tree.faceAt (here ++ [name]) = some (.link text))
      (hmore : rest ≠ [] ∨ followLast = true)
      (hrest : Leads tree followLast links (here.linkStart text)
        (Text.splitChar '/' text ++ rest) target) :
      Leads tree followLast (links + 1) here (name :: rest) target
  | down {links : Nat} {here : Place} {name : Text} {rest : List Text} {target : Target} {f : Face}
      (hdir : tree.faceAt here = some .directory) (hname : Path.Descends name)
      (hshort : Path.IsShort name)
      (hface : tree.faceAt (here ++ [name]) = some f) (hother : ∀ text, f ≠ .link text)
      (hrest : Leads tree followLast links (here ++ [name]) rest target) :
      Leads tree followLast links here (name :: rest) target

variable {tree tree' : Entry} {followLast : Bool} {links : Nat} {here : Place} {names : List Text}
  {target : Target}

theorem not_descends_iff {name : Text} :
    ¬ Path.Descends name ↔ (name = [] || name = ['.'] || name = ['.', '.']) = true := by
  simp [Path.Descends, or_iff_not_imp_left]

theorem faceAt_concat {entries : List (Text × Entry)}
    (hdir : tree.get? here = some (directory entries)) (name : Text) :
    tree.faceAt (here ++ [name]) = (lookup? name entries).map face := by
  rw [faceAt, get?_append_singleton hdir]

theorem leads_of_walk (h : tree.walk followLast links here names = .ok target) :
    Leads tree followLast links here names target := by
  fun_induction walk tree followLast links here names with
  | case1 links here =>
    cases h
    exact .here links here
  | case2 links here name rest entries hdir hname ih =>
    exact .stay (faceAt_eq_directory.2 ⟨entries, hdir⟩) (not_descends_iff.2 hname) (ih h)
  | case4 links here name entries hdir hname hshort hnone =>
    cases h
    exact .missing (faceAt_eq_directory.2 ⟨entries, hdir⟩) (not_imp_comm.1 not_descends_iff.1 hname)
      (Nat.le_of_not_lt hshort) (by rw [faceAt_concat hdir, hnone]; rfl)
  | case6 links here name rest entries hdir hname hshort text hlink hlast =>
    cases h
    simp only [Bool.and_eq_true, decide_eq_true_eq, Bool.not_eq_true'] at hlast
    obtain ⟨rfl, hlast⟩ := hlast
    have hface : tree.faceAt (here ++ [name]) = some (.link text) := by
      rw [faceAt_concat hdir, hlink]
      rfl
    exact .link (faceAt_eq_directory.2 ⟨entries, hdir⟩) (not_imp_comm.1 not_descends_iff.1 hname)
      (Nat.le_of_not_lt hshort) hface hlast
  | case8 here name rest entries hdir hname hshort text hlink hmore links ih =>
    have hface : tree.faceAt (here ++ [name]) = some (.link text) := by
      rw [faceAt_concat hdir, hlink]
      rfl
    exact .follow (faceAt_eq_directory.2 ⟨entries, hdir⟩) (not_imp_comm.1 not_descends_iff.1 hname)
      (Nat.le_of_not_lt hshort) hface (by simpa [imp_iff_not_or] using hmore) (ih h)
  | case9 links here name rest entries hdir hname hshort e hother hentry ih =>
    have hface : tree.faceAt (here ++ [name]) = some e.face := by
      rw [faceAt_concat hdir, hentry]
      rfl
    refine .down (faceAt_eq_directory.2 ⟨entries, hdir⟩) (not_imp_comm.1 not_descends_iff.1 hname)
      (Nat.le_of_not_lt hshort) hface (fun text htext => ?_) (ih h)
    cases e <;> simp_all [face]
  | case3 | case5 | case7 | case10 => cases h

theorem Leads.walk (h : Leads tree followLast links here names target) :
    tree.walk followLast links here names = .ok target := by
  induction h with
  | here links here => rw [Entry.walk]
  | stay hdir hname hrest ih =>
    rw [walk_cons_of_not_descends hname, hdir]
    exact ih
  | missing hdir hname hshort hnone =>
    rw [walk_cons_of_descends hname, hdir, hnone]
    simp [Nat.not_lt.2 hshort]
  | link hdir hname hshort hlink hlast =>
    rw [walk_cons_of_descends hname, hdir, hlink]
    simp [Nat.not_lt.2 hshort, hlast]
  | follow hdir hname hshort hlink hmore hrest ih =>
    rw [walk_cons_of_descends hname, hdir, hlink]
    rcases hmore with hrest | hlast
    · simpa [Nat.not_lt.2 hshort, hrest] using ih
    · simpa [Nat.not_lt.2 hshort, hlast] using ih
  | @down links here name rest target f hdir hname hshort hface hother hrest ih =>
    rw [walk_cons_of_descends hname, hdir, hface]
    cases f with
    | link text => exact absurd rfl (hother text)
    | file bytes => simpa [Nat.not_lt.2 hshort] using ih
    | directory => simpa [Nat.not_lt.2 hshort] using ih

/-- **A walk succeeds exactly when it leads somewhere.** -/
theorem walk_eq_ok_iff : tree.walk followLast links here names = .ok target ↔
    Leads tree followLast links here names target :=
  ⟨leads_of_walk, Leads.walk⟩

/-! ### Two trees with the same directories and links -/

/-- The second tree has the directories and the links of the first, and files where the first has
files. -/
structure Keeps (tree tree' : Entry) : Prop where
  directories : ∀ q, tree.faceAt q = some .directory → tree'.faceAt q = some .directory
  links : ∀ q text, tree.faceAt q = some (.link text) → tree'.faceAt q = some (.link text)
  files : ∀ q bytes, tree.faceAt q = some (.file bytes) →
    ∃ bytes', tree'.faceAt q = some (.file bytes')

theorem Keeps.refl (tree : Entry) : Keeps tree tree :=
  ⟨fun _ => id, fun _ _ => id, fun _ bytes h => ⟨bytes, h⟩⟩

theorem Keeps.trans {tree'' : Entry} (h : Keeps tree tree') (h' : Keeps tree' tree'') :
    Keeps tree tree'' where
  directories q hq := h'.directories q (h.directories q hq)
  links q text hq := h'.links q text (h.links q text hq)
  files q bytes hq := by
    obtain ⟨bytes', hq'⟩ := h.files q bytes hq
    exact h'.files q bytes' hq'

/-- **A tree that keeps directories and links leads walks to the same places**, also to one that was
missing, if there is something other than a link now. -/
theorem Leads.keeps (h : Leads tree followLast links here names target) (hkeeps : Keeps tree tree')
    (hnew : ∀ d name, target = .missing d name →
      ∃ f, tree'.faceAt (d ++ [name]) = some f ∧ ∀ text, f ≠ .link text) :
    Leads tree' followLast links here names (.entry target.place) := by
  induction h with
  | here links here => exact .here links here
  | stay hdir hname hrest ih => exact .stay (hkeeps.directories _ hdir) hname (ih hnew)
  | missing hdir hname hshort hnone =>
    obtain ⟨f, hface, hother⟩ := hnew _ _ rfl
    exact .down (hkeeps.directories _ hdir) hname hshort hface hother (.here _ _)
  | link hdir hname hshort hlink hlast =>
    exact .link (hkeeps.directories _ hdir) hname hshort (hkeeps.links _ _ hlink) hlast
  | follow hdir hname hshort hlink hmore hrest ih =>
    exact .follow (hkeeps.directories _ hdir) hname hshort (hkeeps.links _ _ hlink) hmore (ih hnew)
  | @down links here name rest target f hdir hname hshort hface hother hrest ih =>
    cases f with
    | link text => exact absurd rfl (hother text)
    | directory =>
      exact .down (hkeeps.directories _ hdir) hname hshort (hkeeps.directories _ hface) nofun
        (ih hnew)
    | file bytes =>
      obtain ⟨bytes', hface'⟩ := hkeeps.files _ _ hface
      exact .down (hkeeps.directories _ hdir) hname hshort hface' nofun (ih hnew)

/-! ### The end of a walk -/

/-- Under the name that is missing there is nothing in a directory. -/
theorem Leads.of_missing {d : Place} {name : Text}
    (h : Leads tree followLast links here names (.missing d name)) :
    tree.faceAt d = some .directory ∧ tree.faceAt (d ++ [name]) = none := by
  generalize htarget : Target.missing d name = target at h
  induction h with
  | here => cases htarget
  | stay hdir hname hrest ih => exact ih htarget
  | missing hdir hname hshort hnone =>
    cases htarget
    exact ⟨hdir, hnone⟩
  | link => cases htarget
  | follow hdir hname hshort hlink hmore hrest ih => exact ih htarget
  | down hdir hname hshort hface hother hrest ih => exact ih htarget

/-- **The last name is looked up where the names before it lead**: the walk ends there, or a link of
that name is followed. -/
theorem Leads.concat {name : Text} (hname : Path.Descends name) {q : Place}
    (h : Leads tree true links here (names ++ [name]) (.entry q)) :
    ∃ d, Leads tree true links here names (.entry d) ∧
      (q = d ++ [name] ∨ ∃ text, tree.faceAt (d ++ [name]) = some (.link text)) := by
  generalize hall : names ++ [name] = all at h
  generalize htarget : Target.entry q = target at h
  -- a link on the way puts its own names before the rest, so the names before the last one vary
  induction h generalizing names with
  | here => simp at hall
  | missing => cases htarget
  | link hdir hname hshort hlink hlast => cases hlast
  | stay hdir hstay hrest ih =>
    cases names with
    | nil =>
      obtain ⟨rfl, -⟩ := List.cons.inj hall
      exact absurd hname hstay
    | cons n names =>
      obtain ⟨rfl, hrest'⟩ := List.cons.inj hall
      obtain ⟨d, hd, hq⟩ := ih hrest' htarget
      exact ⟨d, .stay hdir hstay hd, hq⟩
  | @follow links here n text rest target hdir hdown hshort hlink hmore hrest ih =>
    cases names with
    | nil =>
      obtain ⟨rfl, -⟩ := List.cons.inj hall
      exact ⟨here, .here _ here, .inr ⟨text, hlink⟩⟩
    | cons m names =>
      obtain ⟨rfl, rfl⟩ := List.cons.inj hall
      obtain ⟨d, hd, hq⟩ := ih (List.append_assoc ..) htarget
      exact ⟨d, .follow hdir hdown hshort hlink (.inr rfl) hd, hq⟩
  | @down links here n rest target f hdir hdown hshort hface hother hrest ih =>
    cases names with
    | nil =>
      obtain ⟨rfl, rfl⟩ := List.cons.inj hall
      cases hrest
      exact ⟨here, .here _ here, .inl (Target.entry.inj htarget)⟩
    | cons m names =>
      obtain ⟨rfl, hrest'⟩ := List.cons.inj hall
      obtain ⟨d, hd, hq⟩ := ih hrest' htarget
      exact ⟨d, .down hdir hdown hshort hface hother hd, hq⟩

/-! ## What may be touched -/

/-- The bytes of the file at a place. -/
def fileAt (tree : Entry) (q : Place) : Option (List UInt8) :=
  match tree.faceAt q with
  | some (.file bytes) => some bytes
  | _ => none

/-- The path leads to the entry at a place, all links being followed. -/
def LeadsTo (tree : Entry) (path : Text) (q : Place) : Prop :=
  Leads tree true maxLinks [] (Path.components path) (.entry q)

theorem LeadsTo.keeps {path : Text} {q : Place} (h : tree.LeadsTo path q)
    (hkeeps : Keeps tree tree') : tree'.LeadsTo path q :=
  Leads.keeps h hkeeps nofun

theorem LeadsTo.unique {path : Text} {q q' : Place} (h : tree.LeadsTo path q)
    (h' : tree.LeadsTo path q') : q = q' :=
  Target.entry.inj (Except.ok.inj (h.walk.symm.trans h'.walk))

/-- Directories and links stay, and a file is new or different only where one of the paths leads. -/
structure Touched (paths : Text → Prop) (tree tree' : Entry) : Prop where
  keeps : Keeps tree tree'
  files : ∀ q, tree'.fileAt q ≠ tree.fileAt q → ∃ path, paths path ∧ tree'.LeadsTo path q

section File

variable {path : Text} {bytes : List UInt8}
  (hold : tree.faceAt target.place = none ∨ ∃ old, tree.faceAt target.place = some (.file old))
  (hfaces : ∀ q, tree'.faceAt q = if q = target.place then some (.file bytes) else tree.faceAt q)
include hold hfaces

/-- A file over nothing or another file. -/
theorem Keeps.of_file : Keeps tree tree' := by
  refine ⟨fun q hq => ?_, fun q text hq => ?_, fun q old hq => ?_⟩
  · rw [hfaces, if_neg (by rintro rfl; simp [hq] at hold), hq]
  · rw [hfaces, if_neg (by rintro rfl; simp [hq] at hold), hq]
  · by_cases hplace : q = target.place
    · exact ⟨bytes, by rw [hfaces, if_pos hplace]⟩
    · exact ⟨old, by rw [hfaces, if_neg hplace, hq]⟩

/-- A path leads to the file that is written there. -/
theorem Leads.of_file (hleads : Leads tree true maxLinks [] (Path.components path) target) :
    tree'.LeadsTo path target.place := by
  refine hleads.keeps (.of_file hold hfaces) fun d name htarget => ⟨.file bytes, ?_, nofun⟩
  have hnew : tree'.faceAt target.place = some (.file bytes) := by rw [hfaces, if_pos rfl]
  rwa [htarget] at hnew

end File

namespace Touched

variable {paths paths' : Text → Prop} {path : Text} {q : Place}

theorem refl (tree : Entry) : Touched paths tree tree :=
  ⟨.refl tree, fun _ hne => absurd rfl hne⟩

theorem mono (h : Touched paths tree tree') (hpaths : ∀ path, paths path → paths' path) :
    Touched paths' tree tree' where
  keeps := h.keeps
  files q hq := by
    obtain ⟨path, hpath, hleads⟩ := h.files q hq
    exact ⟨path, hpaths path hpath, hleads⟩

theorem trans {tree'' : Entry} (h : Touched paths tree tree') (h' : Touched paths tree' tree'') :
    Touched paths tree tree'' where
  keeps := h.keeps.trans h'.keeps
  files q hq := by
    by_cases hlast : tree''.fileAt q = tree'.fileAt q
    · rw [hlast] at hq
      -- what was written first is still led to when directories and links stay
      obtain ⟨path, hpath, hleads⟩ := h.files q hq
      exact ⟨path, hpath, hleads.keeps h'.keeps⟩
    · exact h'.files q hlast

/-- A file that is written where a path leads. -/
theorem of_file {bytes : List UInt8}
    (hleads : Leads tree true maxLinks [] (Path.components path) target)
    (hold : tree.faceAt target.place = none ∨ ∃ old, tree.faceAt target.place = some (.file old))
    (hfaces : ∀ q, tree'.faceAt q =
      if q = target.place then some (.file bytes) else tree.faceAt q) :
    Touched (· = path) tree tree' := by
  refine ⟨.of_file hold hfaces, fun q hq => ⟨path, rfl, ?_⟩⟩
  obtain rfl : q = target.place := by
    by_contra hplace
    rw [fileAt, fileAt, hfaces, if_neg hplace] at hq
    exact hq rfl
  exact Leads.of_file hold hfaces hleads

/-- A directory that is new. -/
theorem of_directory (hold : tree.faceAt q = none)
    (hfaces : ∀ p, tree'.faceAt p = if p = q then some .directory else tree.faceAt p) :
    Touched paths tree tree' := by
  have hother {p : Place} (hp : tree.faceAt p ≠ none) : tree'.faceAt p = tree.faceAt p := by
    rw [hfaces, if_neg (by rintro rfl; exact hp hold)]
  refine ⟨⟨fun p hp => ?_, fun p text hp => ?_, fun p bytes hp => ⟨bytes, ?_⟩⟩, fun p hp => ?_⟩
  · rw [hother (by simp [hp]), hp]
  · rw [hother (by simp [hp]), hp]
  · rw [hother (by simp [hp]), hp]
  · refine absurd ?_ hp
    by_cases heq : p = q
    · simp only [fileAt, hfaces, heq, hold, if_true]
    · simp only [fileAt, hfaces, if_neg heq]

end Touched

/-- The path exists if it can be used and leads to an entry. -/
theorem pathExists_iff_locate {path : Text} : tree.pathExists path = .ok true ↔
    ∃ q, tree.locate true path = .ok (.entry q) ∧ tree.faceAt q ≠ none := by
  rw [pathExists_iff_stat]
  simp only [stat, bind, Except.bind]
  cases tree.locate true path with
  | error err => simp
  | ok target =>
    cases target with
    | missing d name => simp [throw, throwThe, MonadExceptOf.throw]
    | entry q =>
      cases hq : tree.get? q with
      | none => simp [faceAt, hq, throw, throwThe, MonadExceptOf.throw]
      | some e => simp [faceAt, hq, pure, Except.pure]

theorem Keeps.pathExists (hkeeps : Keeps tree tree') {path : Text}
    (h : tree.pathExists path = .ok true) : tree'.pathExists path = .ok true := by
  obtain ⟨q, hlocate, hq⟩ := pathExists_iff_locate.1 h
  obtain ⟨hnull, hlength, hwalk⟩ := locate_eq_ok_iff.1 hlocate
  refine pathExists_iff_locate.2 ⟨q, locate_eq_ok_iff.2 ⟨hnull, hlength, ?_⟩, ?_⟩
  · exact ((walk_eq_ok_iff.1 hwalk).keeps hkeeps nofun).walk
  · obtain ⟨f, hf⟩ := Option.ne_none_iff_exists'.1 hq
    cases f with
    | file bytes =>
      obtain ⟨bytes', hf'⟩ := hkeeps.files q bytes hf
      simp [hf']
    | directory => simp [hkeeps.directories q hf]
    | link text => simp [hkeeps.links q text hf]

/-- A file put over another one changes the face at its place only. -/
theorem faceAt_put_file {q : Place} {old bytes : List UInt8} (h : tree.get? q = some (.file old))
    (p : Place) : (tree.put q (.file bytes)).faceAt p =
      if p = q then some (.file bytes) else tree.faceAt p := by
  rcases List.eq_nil_or_concat' q with rfl | ⟨here, name, rfl⟩
  · obtain rfl : tree = .file old := Option.some.inj h
    cases p with
    | nil => rfl
    | cons n p => rfl
  · obtain ⟨entries, hdir⟩ := exists_directory_of_get? (by simp) h
    refine faceAt_put hdir (fun e he => ?_) (isLeaf_file bytes) p
    obtain rfl : Entry.file old = e := Option.some.inj (h.symm.trans he)
    exact isLeaf_file old

end Entry

/-! ## What an edit touches -/

namespace Edit

open Entry (Touched)

variable {ε α β : Type} {paths paths' : Text → Prop} {x : Edit ε α} {tree : Entry}

/-- The tree that an edit leaves, also when it fails. -/
def left (x : Edit ε α) (tree : Entry) : Entry := (x.run tree).2

theorem left_eq {result : Except ε α} {after : Entry}
    (h : @Eq (Except ε α × Entry) (x.run tree) (result, after)) : x.left tree = after :=
  congrArg Prod.snd h

theorem touched_bind {f : α → Edit ε β} (hx : Touched paths tree (x.left tree))
    (hf : ∀ a mid, Runs x tree a mid → Touched paths mid ((f a).left mid)) :
    Touched paths tree ((x >>= f).left tree) := by
  cases hrun : x.run tree with
  | mk result mid =>
    rw [left_eq hrun] at hx
    cases result with
    | error e =>
      rw [left, run_bind, hrun]
      exact hx
    | ok a =>
      have hafter := hx.trans (hf a mid hrun)
      rw [left] at hafter ⊢
      rw [run_bind, hrun]
      exact hafter

/-- Whatever the tree, the edit leaves directories and links, and it makes or changes a file only
where one of the paths leads. -/
def Touches (paths : Text → Prop) (x : Edit ε α) : Prop := ∀ tree, Touched paths tree (x.left tree)

namespace Touches

theorem mono (h : Touches paths x) (hpaths : ∀ path, paths path → paths' path) : Touches paths' x :=
  fun tree => (h tree).mono hpaths

theorem pure (a : α) : Touches paths (Pure.pure a : Edit ε α) := fun tree => .refl tree

theorem throw (e : ε) : Touches paths (MonadExcept.throw e : Edit ε α) := fun tree => .refl tree

theorem ask (question : Entry → Except FileError α) : Touches paths (Edit.ask question) :=
  fun tree => by
  rw [left, run_ask]
  exact .refl tree

theorem lift {x : FileEdit α} (hx : Touches paths x) : Touches paths x.lift := hx

theorem bind {f : α → Edit ε β} (hx : Touches paths x) (hf : ∀ a, Touches paths (f a)) :
    Touches paths (x >>= f) :=
  fun tree => touched_bind (hx tree) fun a mid _ => hf a mid

theorem tryCatch {handler : ε → Edit ε α} (hx : Touches paths x)
    (hhandler : ∀ e, Touches paths (handler e)) : Touches paths (tryCatch x handler) :=
  fun tree => by
  cases hrun : x.run tree with
  | mk result mid =>
    have hmid : Touched paths tree mid := left_eq hrun ▸ hx tree
    cases result with
    | error e =>
      have hafter := hmid.trans (hhandler e mid)
      rw [left] at hafter ⊢
      rw [run_tryCatch, hrun]
      exact hafter
    | ok a =>
      rw [left, run_tryCatch, hrun]
      exact hmid

end Touches

section File

variable {path : Text} {write : List UInt8 → List UInt8} {tree' : Entry}

/-- A file that is written changes the face at one place, the one to which its path leads. -/
theorem updateFile_runs {u : Unit} (h : Runs (updateFile path write) tree u tree') :
    ∃ target bytes, tree.locate true path = .ok target ∧
      (tree.faceAt target.place = none ∨ ∃ old, tree.faceAt target.place = some (.file old)) ∧
      ∀ q, tree'.faceAt q = if q = target.place then some (.file bytes) else tree.faceAt q := by
  rw [Runs, run_updateFile] at h
  split at h
  · cases h
  · next d name hmissing =>
    cases h
    have hleads := Entry.walk_eq_ok_iff.1 (Entry.locate_eq_ok_iff.1 hmissing).2.2
    obtain ⟨hdir, hnone⟩ := hleads.of_missing
    obtain ⟨entries, hdir⟩ := Entry.faceAt_eq_directory.1 hdir
    refine ⟨.missing d name, write [], hmissing, .inl hnone, ?_⟩
    exact Entry.faceAt_put hdir (by simp [Entry.faceAt_eq_none.1 hnone]) (Entry.isLeaf_file _)
  · next q hentry =>
    split at h
    · next old hold =>
      cases h
      exact ⟨.entry q, write old, hentry, .inr ⟨old, Entry.faceAt_eq_file.2 hold⟩,
        Entry.faceAt_put_file hold⟩
    · cases h

theorem updateFile_fails {e : FileError}
    (h : @Eq (Except FileError Unit × Entry) ((updateFile path write).run tree) (.error e, tree')) :
    tree' = tree := by
  rw [run_updateFile] at h
  split at h
  · cases h
    rfl
  · cases h
  · split at h <;> cases h
    rfl

/-- **Writing a file touches nothing else.** -/
theorem touches_updateFile (path : Text) (write : List UInt8 → List UInt8) :
    Touches (· = path) (updateFile path write) := fun tree => by
  cases hrun : (updateFile path write).run tree with
  | mk result after =>
    rw [left_eq hrun]
    cases result with
    | error e =>
      rw [updateFile_fails hrun]
      exact .refl tree
    | ok u =>
      obtain ⟨target, bytes, htarget, hold, hfaces⟩ := updateFile_runs hrun
      exact .of_file (Entry.walk_eq_ok_iff.1 (Entry.locate_eq_ok_iff.1 htarget).2.2) hold hfaces

/-- A file that was written exists. -/
theorem pathExists_of_updateFile {u : Unit} (h : Runs (updateFile path write) tree u tree') :
    tree'.pathExists path = .ok true := by
  obtain ⟨target, bytes, htarget, hold, hfaces⟩ := updateFile_runs h
  obtain ⟨hnull, hlength, hwalk⟩ := Entry.locate_eq_ok_iff.1 htarget
  have hleads := Entry.Leads.of_file hold hfaces (Entry.walk_eq_ok_iff.1 hwalk)
  refine Entry.pathExists_iff_locate.2 ⟨target.place, ?_, by simp [hfaces]⟩
  exact Entry.locate_eq_ok_iff.2 ⟨hnull, hlength, hleads.walk⟩

end File

theorem touches_makeDirectory (path : Text) : Touches paths (makeDirectory path) := fun tree => by
  rw [left, run_makeDirectory]
  split
  · exact .refl tree
  · next d name hmissing =>
    obtain ⟨hdir, hnone⟩ :=
      (Entry.walk_eq_ok_iff.1 (Entry.locate_eq_ok_iff.1 hmissing).2.2).of_missing
    obtain ⟨entries, hdir⟩ := Entry.faceAt_eq_directory.1 hdir
    exact .of_directory hnone
      (Entry.faceAt_put hdir (by simp [Entry.faceAt_eq_none.1 hnone]) Entry.isLeaf_directory)
  · exact .refl tree

theorem touches_recheck (path : Text) (e : FileError) : Touches paths (recheck path e) :=
  .bind (.ask _) fun found => by
    cases found with
    | false => exact .throw e
    | true => exact .pure ()

theorem touches_makeDirectoriesAt (anchor : Text) (reversed : List Text) :
    Touches paths (makeDirectoriesAt anchor reversed) := by
  induction reversed with
  | nil => exact .pure ()
  | cons name above ih =>
    rw [makeDirectoriesAt_cons]
    refine .tryCatch (touches_makeDirectory _) fun e => ?_
    split
    · refine .bind ih fun _ => .tryCatch (touches_makeDirectory _) fun e => ?_
      split
      · exact .throw e
      · exact touches_recheck _ e
    · exact touches_recheck _ e

/-- **Making directories touches no file.** -/
theorem touches_makeDirectories (path : Text) : Touches paths (makeDirectories path) :=
  touches_makeDirectoriesAt _ _

end Edit

end CodeIndex
