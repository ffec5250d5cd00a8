import CodeIndex.Environment
import CodeIndex.Proofs.FileTree.Reach
import Mathlib.Data.List.Perm.Subperm

/-!
# Links that are followed

A walk puts the names of a link before those that are left; `followLinks` follows each link for
itself and then goes on. `Follows` describes the second way where all names lead to entries, and
counts the links. A walk that leads to an entry can be described so (`Leads.follows`), and where
names lead to an entry, `followLinks` finds it (`followLinks_of_follows`): a link that is being
followed costs more than what is left of its own names, so that it is not met again, and there are
not more such links than the tree has. So a path that goes on behind a file does not resolve to a
directory (`not_prefix_of_stat`).
-/

namespace CodeIndex

namespace Entry

/-! ## The links of a tree -/

mutual

/-- The places of the links in a tree. -/
def linkPlaces : Entry → List Place
  | file _ => []
  | directory entries => linkPlacesEach entries
  | link _ => [[]]

/-- The places of the links in the entries of a directory. -/
def linkPlacesEach : List (Text × Entry) → List Place
  | [] => []
  | (name, e) :: entries => (linkPlaces e).map (name :: ·) ++ linkPlacesEach entries

end

theorem length_linkPlacesEach {entries : List (Text × Entry)}
    (h : ∀ a ∈ entries, a.2.linkPlaces.length = a.2.linkCount) :
    (linkPlacesEach entries).length = linkCounts entries := by
  induction entries with
  | nil => rfl
  | cons a entries ih =>
    obtain ⟨ha, hentries⟩ := List.forall_mem_cons.1 h
    rw [linkPlacesEach, linkCounts, List.length_append, List.length_map, ha, ih hentries]

theorem length_linkPlaces (tree : Entry) : tree.linkPlaces.length = tree.linkCount := by
  induction tree using Entry.induction with
  | file bytes => rfl
  | link target => rfl
  | directory entries ih =>
    rw [linkPlaces, linkCount]
    exact length_linkPlacesEach ih

theorem mem_linkPlacesEach {entries : List (Text × Entry)} {name : Text} {e : Entry} {p : Place}
    (he : lookup? name entries = some e) (hp : p ∈ e.linkPlaces) :
    name :: p ∈ linkPlacesEach entries := by
  induction entries with
  | nil => cases he
  | cons a entries ih =>
    rw [linkPlacesEach, List.mem_append]
    rw [lookup?] at he
    split at he
    · next hname =>
      obtain rfl : a.2 = e := Option.some.inj he
      exact .inl (hname ▸ List.mem_map_of_mem hp)
    · exact .inr (ih he)

theorem mem_linkPlaces {tree : Entry} {p : Place} {text : Text}
    (h : tree.get? p = some (.link text)) : p ∈ tree.linkPlaces := by
  induction p generalizing tree with
  | nil =>
    obtain rfl : tree = .link text := Option.some.inj h
    exact List.mem_singleton.2 rfl
  | cons name p ih =>
    obtain ⟨entries, e, rfl, he, hp⟩ := exists_lookup?_of_get? h
    rw [linkPlaces]
    exact mem_linkPlacesEach he (ih hp)

/-- There are not more links than are counted. -/
theorem length_le_linkCount {tree : Entry} {places : List Place} (hnodup : places.Nodup)
    (hlinks : ∀ p ∈ places, ∃ text, tree.faceAt p = some (.link text)) :
    places.length ≤ tree.linkCount := by
  have hsub : places ⊆ tree.linkPlaces := fun p hp => by
    obtain ⟨text, hp⟩ := hlinks p hp
    exact mem_linkPlaces (faceAt_eq_link.1 hp)
  calc places.length ≤ tree.linkPlaces.length := (hnodup.subperm hsub).length_le
    _ = tree.linkCount := length_linkPlaces tree

/-! ## Names that lead to an entry -/

/-- Some names lead from a place to another one, and so many links are followed on the way. The
names of a link are followed before those after it. -/
inductive Follows (tree : Entry) : Nat → Place → List Text → Place → Prop
  | done (here : Place) : Follows tree 0 here [] here
  | stay {cost : Nat} {here q : Place} {name : Text} {rest : List Text}
      (hdir : tree.faceAt here = some .directory) (hname : ¬ Path.Descends name)
      (hrest : Follows tree cost (here.step name) rest q) : Follows tree cost here (name :: rest) q
  | link {cost cost' : Nat} {here mid q : Place} {name text : Text} {rest : List Text}
      (hdir : tree.faceAt here = some .directory) (hname : Path.Descends name)
      (hlink : tree.faceAt (here ++ [name]) = some (.link text))
      (htext : Follows tree cost (here.linkStart text) (Text.splitChar '/' text) mid)
      (hrest : Follows tree cost' mid rest q) :
      Follows tree (cost + 1 + cost') here (name :: rest) q
  | down {cost : Nat} {here q : Place} {name : Text} {rest : List Text} {f : Face}
      (hdir : tree.faceAt here = some .directory) (hname : Path.Descends name)
      (hface : tree.faceAt (here ++ [name]) = some f) (hother : ∀ text, f ≠ .link text)
      (hrest : Follows tree cost (here ++ [name]) rest q) : Follows tree cost here (name :: rest) q

variable {tree : Entry} {cost cost' budget links : Nat} {here q q' : Place} {names rest : List Text}

namespace Follows

theorem exists_of_append (h : Follows tree cost here (names ++ rest) q) :
    ∃ c mid c', Follows tree c here names mid ∧ Follows tree c' mid rest q := by
  induction names generalizing here cost with
  | nil => exact ⟨0, here, cost, .done here, h⟩
  | cons name names ih =>
    cases h with
    | stay hdir hname hrest =>
      obtain ⟨c, mid, c', hnames, hrest⟩ := ih hrest
      exact ⟨c, mid, c', .stay hdir hname hnames, hrest⟩
    | link hdir hname hlink htext hrest =>
      obtain ⟨c, mid, c', hnames, hrest⟩ := ih hrest
      exact ⟨_, mid, c', .link hdir hname hlink htext hnames, hrest⟩
    | down hdir hname hface hother hrest =>
      obtain ⟨c, mid, c', hnames, hrest⟩ := ih hrest
      exact ⟨c, mid, c', .down hdir hname hface hother hnames, hrest⟩

/-- **There is one way to follow names.** -/
theorem unique (h : Follows tree cost here names q) (h' : Follows tree cost' here names q') :
    cost = cost' ∧ q = q' := by
  induction h generalizing cost' q' with
  | done here =>
    cases h'
    exact ⟨rfl, rfl⟩
  | stay hdir hname hrest ih =>
    cases h' with
    | stay _ _ hrest' => exact ih hrest'
    | link _ hname' | down _ hname' => exact absurd hname' hname
  | link hdir hname hlink htext hrest ihtext ihrest =>
    cases h' with
    | stay _ hname' => exact absurd hname hname'
    | link _ _ hlink' htext' hrest' =>
      obtain rfl := Face.link.inj (Option.some.inj (hlink.symm.trans hlink'))
      obtain ⟨rfl, rfl⟩ := ihtext htext'
      obtain ⟨rfl, rfl⟩ := ihrest hrest'
      exact ⟨rfl, rfl⟩
    | down _ _ hface hother => exact absurd (Option.some.inj (hface.symm.trans hlink)) (hother _)
  | down hdir hname hface hother hrest ih =>
    cases h' with
    | stay _ hname' => exact absurd hname hname'
    | link _ _ hlink => exact absurd (Option.some.inj (hface.symm.trans hlink)) (hother _)
    | down _ _ _ _ hrest' => exact ih hrest'

end Follows

/-- **Where a walk leads to an entry, its names do.** -/
theorem Leads.follows (h : Leads tree true links here names (.entry q)) :
    ∃ cost, Follows tree cost here names q := by
  generalize htarget : Target.entry q = target at h
  induction h with
  | here links here =>
    cases htarget
    exact ⟨0, .done _⟩
  | missing => cases htarget
  | link hdir hname hshort hlink hlast => cases hlast
  | stay hdir hname hrest ih =>
    obtain ⟨cost, hrest⟩ := ih htarget
    exact ⟨cost, .stay hdir hname hrest⟩
  | follow hdir hname hshort hlink hmore hrest ih =>
    obtain ⟨cost, hall⟩ := ih htarget
    obtain ⟨c, mid, c', htext, hrest⟩ := hall.exists_of_append
    exact ⟨_, .link hdir hname hlink htext hrest⟩
  | down hdir hname hshort hface hother hrest ih =>
    obtain ⟨cost, hrest⟩ := ih htarget
    exact ⟨cost, .down hdir hname hface hother hrest⟩

/-! ## Following the names of links first -/

/-- So many links are met behind the link at a place. -/
def LinkCost (tree : Entry) (b : Place) (cost : Nat) : Prop :=
  ∃ (here : Place) (name text : Text) (q : Place), b = here ++ [name] ∧
    tree.faceAt b = some (.link text) ∧
    Follows tree cost (here.linkStart text) (Text.splitChar '/' text) q

theorem LinkCost.unique {b : Place} (h : tree.LinkCost b cost) (h' : tree.LinkCost b cost') :
    cost = cost' := by
  obtain ⟨here, name, text, q, rfl, hlink, hfollows⟩ := h
  obtain ⟨here', name', text', q', hplace, hlink', hfollows'⟩ := h'
  obtain ⟨rfl, -⟩ := List.append_inj' hplace rfl
  obtain rfl := Face.link.inj (Option.some.inj (hlink.symm.trans hlink'))
  exact (hfollows.unique hfollows').1

/-- Some links are being followed, and names that cost so much are left: the links are different,
there are not more of them than the budget allows for, and behind each of them are all links that
are left. -/
structure Following (tree : Entry) (busy : List Place) (budget cost : Nat) : Prop where
  nodup : busy.Nodup
  links : ∀ b ∈ busy, ∃ text, tree.faceAt b = some (.link text)
  budget : tree.linkCount ≤ budget + busy.length
  behind : ∀ b ∈ busy, ∀ c, tree.LinkCost b c → cost ≤ c

namespace Following

variable {busy : List Place} {b : Place} {text : Text}

theorem mono (h : Following tree busy budget cost) (hle : cost' ≤ cost) :
    Following tree busy budget cost' :=
  ⟨h.nodup, h.links, h.budget, fun b hb c hc => Nat.le_trans hle (h.behind b hb c hc)⟩

/-- A link is not met again while it is followed. -/
theorem not_mem (h : Following tree busy budget cost) (hcost : tree.LinkCost b cost')
    (hlt : cost' < cost) : b ∉ busy :=
  fun hb => Nat.not_le.2 hlt (h.behind b hb cost' hcost)

/-- The budget allows for a link that is not followed yet. -/
theorem budget_pos (h : Following tree busy budget cost) (hb : b ∉ busy)
    (hlink : tree.faceAt b = some (.link text)) : 0 < budget := by
  have hle : (b :: busy).length ≤ tree.linkCount :=
    length_le_linkCount (List.nodup_cons.2 ⟨hb, h.nodup⟩)
      (List.forall_mem_cons.2 ⟨⟨text, hlink⟩, h.links⟩)
  have hbudget := h.budget
  rw [List.length_cons] at hle
  omega

theorem cons (h : Following tree busy (budget + 1) cost) (hb : b ∉ busy)
    (hlink : tree.faceAt b = some (.link text)) (hcost : tree.LinkCost b cost')
    (hle : cost' ≤ cost) :
    Following tree (b :: busy) budget cost' where
  nodup := List.nodup_cons.2 ⟨hb, h.nodup⟩
  links := List.forall_mem_cons.2 ⟨⟨text, hlink⟩, h.links⟩
  budget := by
    have hbudget := h.budget
    rw [List.length_cons]
    omega
  behind := List.forall_mem_cons.2 ⟨fun c hc => Nat.le_of_eq (hcost.unique hc), (h.mono hle).behind⟩

end Following

theorem followLinks_cons_of_not_descends {busy : List Place} {name : Text}
    (hname : ¬ Path.Descends name) (rest : List Text) :
    tree.followLinks budget busy here (name :: rest) =
      tree.followLinks budget busy (here.step name) rest := by
  rw [followLinks, if_pos (not_descends_iff.1 hname)]

theorem followLinks_cons_of_other {busy : List Place} {name : Text} (hname : Path.Descends name)
    (hother : ∀ text, tree.faceAt (here ++ [name]) ≠ some (.link text)) (rest : List Text) :
    tree.followLinks budget busy here (name :: rest) =
      tree.followLinks budget busy (here ++ [name]) rest := by
  rw [followLinks, if_neg (mt not_descends_iff.2 (not_not_intro hname))]
  split
  · next text hlink => exact absurd (faceAt_eq_link.2 hlink) (hother text)
  · rfl

theorem followLinks_cons_of_link {busy : List Place} {name text : Text} {mid : Place}
    (hname : Path.Descends name) (hlink : tree.faceAt (here ++ [name]) = some (.link text))
    (hbusy : here ++ [name] ∉ busy)
    (htext : tree.followLinks budget ((here ++ [name]) :: busy) (here.linkStart text)
      (Text.splitChar '/' text) = (mid, true)) (rest : List Text) :
    tree.followLinks (budget + 1) busy here (name :: rest) =
      tree.followLinks (budget + 1) busy mid rest := by
  rw [followLinks, if_neg (mt not_descends_iff.2 (not_not_intro hname)), faceAt_eq_link.1 hlink]
  simp only [List.contains_iff_mem, hbusy, htext, ↓reduceIte]

/-- **Names that lead to an entry are followed to it**, whatever comes after them. -/
theorem followLinks_of_follows (h : Follows tree cost here names q) {busy : List Place}
    (hfollowing : Following tree busy budget cost) (rest : List Text) :
    tree.followLinks budget busy here (names ++ rest) = tree.followLinks budget busy q rest := by
  induction h generalizing busy budget rest with
  | done here => rfl
  | stay hdir hname hrest ih =>
    rw [List.cons_append, followLinks_cons_of_not_descends hname]
    exact ih hfollowing rest
  | @link cost cost' here mid q name text names hdir hname hlink htext hrest ihtext ihrest =>
    have hcost : tree.LinkCost (here ++ [name]) cost := ⟨here, name, text, mid, rfl, hlink, htext⟩
    have hbusy := hfollowing.not_mem hcost (by omega)
    obtain ⟨budget, rfl⟩ :=
      Nat.exists_eq_succ_of_ne_zero (Nat.ne_of_gt (hfollowing.budget_pos hbusy hlink))
    have hmid := ihtext (hfollowing.cons hbusy hlink hcost (by omega)) []
    rw [List.append_nil, followLinks] at hmid
    rw [List.cons_append, followLinks_cons_of_link hname hlink hbusy hmid]
    exact ihrest (hfollowing.mono (by omega)) rest
  | down hdir hname hface hother hrest ih =>
    rw [List.cons_append, followLinks_cons_of_other hname]
    · exact ih hfollowing rest
    · intro text hlink
      exact hother text (Option.some.inj (hface.symm.trans hlink))

theorem following_nil (tree : Entry) (cost : Nat) : Following tree [] tree.linkCount cost :=
  ⟨.nil, by simp, by simp, by simp⟩

/-! ## Ways through files -/

/-- There is an entry at the place, and it is no link. -/
def IsReal (tree : Entry) (p : Place) : Prop := ∃ f, tree.faceAt p = some f ∧ ∀ text, f ≠ .link text

theorem isReal_of_directory (h : tree.faceAt q = some .directory) : tree.IsReal q :=
  ⟨.directory, h, nofun⟩

theorem IsReal.exists_get? (h : tree.IsReal q) : ∃ e, tree.get? q = some e := by
  obtain ⟨f, hf, -⟩ := h
  obtain ⟨e, he, -⟩ := Option.map_eq_some_iff.1 hf
  exact ⟨e, he⟩

theorem faceAt_step {name : Text} (hname : ¬ Path.Descends name)
    (h : tree.faceAt here = some .directory) : tree.faceAt (here.step name) = some .directory := by
  unfold Place.step
  split
  · exact h
  · split
    · rcases List.eq_nil_or_concat' here with rfl | ⟨above, last, rfl⟩
      · exact h
      · obtain ⟨e, he⟩ := (isReal_of_directory h).exists_get?
        rw [List.dropLast_concat]
        exact faceAt_above (List.prefix_append _ _) (by simp) he
    · next hstay hback =>
      simp only [Bool.or_eq_true, decide_eq_true_eq, not_or] at hstay
      exact absurd ⟨hstay.1, hstay.2, hback⟩ hname

theorem faceAt_linkStart (h : tree.faceAt here = some .directory) (text : Text) :
    tree.faceAt (here.linkStart text) = some .directory := by
  unfold Place.linkStart
  split
  · rcases List.eq_nil_or_concat' here with rfl | ⟨above, last, rfl⟩
    · exact h
    · obtain ⟨e, he⟩ := (isReal_of_directory h).exists_get?
      exact faceAt_above List.nil_prefix (by simp) he
  · exact h

/-- Links are not where names lead. -/
theorem Follows.isReal (h : Follows tree cost here names q) (hhere : tree.IsReal here) :
    tree.IsReal q := by
  induction h with
  | done here => exact hhere
  | stay hdir hname hrest ih => exact ih (isReal_of_directory (faceAt_step hname hdir))
  | link hdir hname hlink htext hrest ihtext ihrest =>
    exact ihrest (ihtext (isReal_of_directory (faceAt_linkStart hdir _)))
  | down hdir hname hface hother hrest ih => exact ih ⟨_, hface, hother⟩

/-- The way down to an entry is without links, if the entry is none. -/
theorem IsReal.follows (h : tree.IsReal (here ++ names)) (hnames : Place.IsProper names) :
    Follows tree 0 here names (here ++ names) := by
  induction names generalizing here with
  | nil =>
    rw [List.append_nil]
    exact .done here
  | cons name names ih =>
    obtain ⟨hname, hnames⟩ := List.forall_mem_cons.1 hnames
    obtain ⟨e, he⟩ := h.exists_get?
    have hdir : tree.faceAt here = some .directory :=
      faceAt_above (List.prefix_append _ _) (by simp) he
    rw [List.append_cons] at h he ⊢
    have hnext : tree.IsReal (here ++ [name]) := by
      cases names with
      | nil => rwa [List.append_nil] at h
      | cons n names =>
        exact isReal_of_directory (faceAt_above (List.prefix_append _ _) (by simp) he)
    obtain ⟨f, hface, hother⟩ := hnext
    exact .down hdir hname.descends hface hother (ih h hnames)

/-- Nothing is followed behind what is no directory. -/
theorem followLinks_of_not_directory {busy : List Place} (h : tree.faceAt here ≠ some .directory)
    (hnames : Place.IsProper names) :
    tree.followLinks budget busy here names = (here ++ names, true) := by
  induction names generalizing here with
  | nil => rw [followLinks, List.append_nil]
  | cons name names ih =>
    obtain ⟨hname, hnames⟩ := List.forall_mem_cons.1 hnames
    have hnone : tree.faceAt (here ++ [name]) = none := by
      rw [faceAt_eq_none, ← Option.not_isSome_iff_eq_none]
      intro hsome
      obtain ⟨e, he⟩ := Option.isSome_iff_exists.1 hsome
      exact h (faceAt_above (List.prefix_append _ _) (by simp) he)
    rw [followLinks_cons_of_other hname.descends (by simp [hnone]), ih (by simp [hnone]) hnames,
      List.append_assoc, List.singleton_append]

/-- A path that can be used leads along its components. -/
theorem exists_follows_of_stat {path : Text} {e : Entry} (h : tree.stat path = .ok e) :
    ∃ cost q, Follows tree cost [] (Path.components path) q ∧ tree.get? q = some e := by
  simp only [stat, bind, Except.bind] at h
  split at h
  · cases h
  · next target htarget =>
    cases target with
    | missing d name => cases h
    | entry q =>
      obtain ⟨cost, hfollows⟩ := (walk_eq_ok_iff.1 (locate_eq_ok_iff.1 htarget).2.2).follows
      refine ⟨cost, q, hfollows, ?_⟩
      cases hq : tree.get? q with
      | none => simp [hq, throw, throwThe, MonadExceptOf.throw] at h
      | some f =>
        simp only [hq] at h
        cases h
        rfl

/-- The names that are left when links are followed lead down. -/
theorem isProper_followLinks {busy : List Place} (hhere : here.IsProper)
    (hnames : ∀ n ∈ names, '/' ∉ n) : (tree.followLinks budget busy here names).1.IsProper := by
  have hsplit (text : Text) : ∀ n ∈ Text.splitChar '/' text, '/' ∉ n :=
    fun n hn => Text.not_mem_of_mem_splitCharFrom (by simp) hn
  have hstart {here : Place} (hhere : here.IsProper) (text : Text) :
      Place.IsProper (here.linkStart text) := by
    unfold Place.linkStart
    split
    · simp [Place.IsProper]
    · exact hhere
  have hdown {here : Place} {name : Text} (hhere : here.IsProper)
      (hname : ¬ (name = [] || name = ['.'] || name = ['.', '.']) = true) (hslash : '/' ∉ name) :
      Place.IsProper (here ++ [name]) := by
    simp only [Bool.or_eq_true, decide_eq_true_eq, not_or] at hname
    exact hhere.concat ⟨⟨hname.1.1, hname.1.2, hslash⟩, hname.2⟩
  fun_induction followLinks tree budget busy here names with
  | case1 budget busy here => exact hhere
  | case2 budget busy here name rest hname ih =>
    obtain ⟨hslash, hrest⟩ := List.forall_mem_cons.1 hnames
    exact ih (hhere.step hslash) hrest
  | case3 busy here name rest hname text hlink =>
    obtain ⟨hslash, hrest⟩ := List.forall_mem_cons.1 hnames
    exact (hdown hhere hname hslash).foldl_step hrest
  | case4 busy here name rest hname text hlink budget hbusy =>
    obtain ⟨hslash, hrest⟩ := List.forall_mem_cons.1 hnames
    exact (hdown hhere hname hslash).foldl_step hrest
  | case5 busy here name rest hname text hlink budget hbusy p hp ihtext ihrest =>
    have hproper := ihtext (hstart hhere text) (hsplit text)
    rw [hp] at hproper
    exact ihrest hproper (List.forall_mem_cons.1 hnames).2
  | case6 busy here name rest hname text hlink budget hbusy p hp ihtext =>
    have hproper := ihtext (hstart hhere text) (hsplit text)
    rw [hp] at hproper
    exact hproper.foldl_step (List.forall_mem_cons.1 hnames).2
  | case7 budget busy here name rest hname hother ih =>
    obtain ⟨hslash, hrest⟩ := List.forall_mem_cons.1 hnames
    exact ih (hdown hhere hname hslash) hrest

/-- **A path that goes on behind a file does not resolve to a directory.** -/
theorem not_prefix_of_stat {r f : Place} {e d : Entry} (hr : r.IsProper)
    (hf : tree.stat f.path = .ok e) (he : e.isDirectory = false)
    (hd : tree.stat (tree.followLinks tree.linkCount [] [] r).1.path = .ok d)
    (hdir : d.isDirectory = true) :
    ¬ f <+: r := by
  rintro ⟨s, rfl⟩
  obtain ⟨hfproper, hsproper⟩ := List.forall_mem_append.1 hr
  -- the file at `g` is where `f` leads, and the rest is put behind it
  obtain ⟨cost, g, hg, hge⟩ := exists_follows_of_stat hf
  rw [Place.components_path (Place.IsProper.isName hfproper)] at hg
  have hgdir : tree.faceAt g ≠ some .directory := by
    rw [faceAt, hge]
    cases e <;> simp_all [face, isDirectory]
  have hgproper : g.IsProper := by
    have hfollow := followLinks_of_follows hg (following_nil tree cost) []
    rw [List.append_nil, followLinks] at hfollow
    have hproper : (tree.followLinks tree.linkCount [] [] f).1.IsProper :=
      isProper_followLinks (by simp [Place.IsProper]) fun n hn => (hfproper n hn).1.2.2
    rwa [hfollow] at hproper
  rw [followLinks_of_follows hg (following_nil tree cost) s,
    followLinks_of_not_directory hgdir hsproper] at hd
  -- so the directory is reached behind `g`, which is no link
  obtain ⟨cost', q, hq, hqd⟩ := exists_follows_of_stat hd
  rw [Place.components_path (hgproper.append hsproper).isName] at hq
  have hroot : tree.faceAt [] = some .directory := by
    cases q with
    | nil =>
      obtain rfl : tree = d := Option.some.inj hqd
      cases tree <;> simp_all [isDirectory, faceAt, get?, face]
    | cons name q => exact faceAt_above List.nil_prefix (by simp) hqd
  have hself : Follows tree 0 [] g g :=
    IsReal.follows (hg.isReal (isReal_of_directory hroot)) hgproper
  obtain ⟨c, mid, c', hmid, hs⟩ := hq.exists_of_append
  obtain ⟨-, rfl⟩ := hself.unique hmid
  cases hs with
  | done =>
    obtain rfl : e = d := Option.some.inj (hge.symm.trans hqd)
    simp [he] at hdir
  | stay hstay | link hstay | down hstay => exact hgdir hstay

theorem eq_of_resolve {path real : Text} (h : tree.resolve path = .ok real) :
    real = (tree.followLinks tree.linkCount [] [] (Path.components path)).1.path := by
  unfold resolve at h
  split at h
  · cases h
  · dsimp only at h
    split at h
    · cases h
    · exact (Except.ok.inj h).symm

end Entry

/-! ## Real paths -/

namespace Environment

variable {env : Environment} {tree : Entry} {path real : Text} {r : Place}

theorem resolve_of_lift (h : ResolveError.lift (tree.resolve path) = .ok real) :
    tree.resolve path = .ok real := by
  cases hresolve : tree.resolve path with
  | error e =>
    rw [hresolve] at h
    cases h
  | ok found =>
    rw [hresolve] at h
    exact congrArg Except.ok (Except.ok.inj h)

/-- A real path leads to a place. -/
theorem exists_place_of_realPath (h : env.realPath tree path = .ok real) :
    ∃ r : Place, real = r.path ∧ r.IsProper := by
  simp only [realPath, bind, Except.bind] at h
  split at h
  · cases h
  · refine ⟨_, Entry.eq_of_resolve (resolve_of_lift h), ?_⟩
    exact Entry.isProper_followLinks (by simp [Place.IsProper]) fun n hn =>
      (Path.isName_of_mem_components hn).2.2

/-- The path to a place is resolved as it is. -/
theorem realPath_path_eq (env : Environment) (tree : Entry) (hr : r.IsProper) :
    env.realPath tree r.path = ResolveError.lift (tree.resolve r.path) := by
  have habsolute : Path.isAbsolute r.path = true := by
    simp [Path.isAbsolute, Place.anchor_path hr.isName]
  have hhome : env.expandHome r.path = .ok r.path := by rw [expandHome, if_pos habsolute]
  have happend : Path.append env.workingDirectory r.path = r.path := by
    rw [Path.append, if_pos habsolute, Place.normal_path hr.isName]
  rw [realPath, hhome]
  simp only [bind, Except.bind, happend]

/-- The real path to a place follows its links. -/
theorem eq_of_realPath_path (hr : r.IsProper) (h : env.realPath tree r.path = .ok real) :
    real = (tree.followLinks tree.linkCount [] [] r).1.path := by
  rw [realPath_path_eq env tree hr] at h
  rw [Entry.eq_of_resolve (resolve_of_lift h), Place.components_path hr.isName]

end Environment

end CodeIndex
