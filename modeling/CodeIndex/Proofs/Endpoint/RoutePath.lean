import CodeIndex.Endpoint.RoutePath
import CodeIndex.Proofs.Path
import CodeIndex.Proofs.Text.Blank
import CodeIndex.Proofs.Text.Cut

/-!
# Route paths of files

A file below the `api` directory of a router has the route path that its directories spell
(`ofFile?_below`): what a directory adds to the path is told by `Adds`, without the scanners that
read it. Files of one directory have one route path, whether they are named `route` for the one
router or `index` for the other, and a file of the first router with any other name has none.

* The router is the first in the path, for no directory before it is named `api` (`search?_below`).
* The suffix is behind the last dot of the path, which is the last dot of the file (`stem_append`).
-/

namespace CodeIndex.RoutePath

open Text

/-! ## Directories -/

/-- What a directory adds to the route path: one in parentheses nothing, one in brackets a
parameter, which takes all that follows if it is written with dots, and any other itself. -/
inductive Adds : Text → Option Text → Prop where
  | group (name : Text) : Adds ('(' :: name ++ [')']) none
  | parameter {w : Text} (hne : w ≠ []) (hw : ∀ c ∈ w, isWord c = true) :
      Adds ("[".toList ++ w ++ "]".toList) (some (':' :: w))
  | rest {w : Text} (hne : w ≠ []) (hw : ∀ c ∈ w, isWord c = true) :
      Adds ("[...".toList ++ w ++ "]".toList) (some (':' :: w ++ ['*']))
  | optionalRest {w : Text} (hne : w ≠ []) (hw : ∀ c ∈ w, isWord c = true) :
      Adds ("[[...".toList ++ w ++ "]]".toList) (some (':' :: w ++ ['*']))
  | plain {s : Text} (hbracket : s.head? ≠ some '[') (hgroup : ∀ name, s ≠ '(' :: name ++ [')']) :
      Adds s (some s)

/-- A directory between the `api` directory of a router and a file, with what it adds to the route
path. -/
structure Directory where
  text : Text
  route : Option Text
  adds : Adds text route
  noSlash : '/' ∉ text
  noLineFeed : '\n' ∉ text

theorem isGroup_iff {s : Text} : isGroup s = true ↔ ∃ name, s = '(' :: name ++ [')'] := by
  constructor
  · intro h
    simp only [isGroup, Bool.and_eq_true, decide_eq_true_eq, endsWithChar, beq_iff_eq] at h
    obtain ⟨⟨hlength, hstarts⟩, hends⟩ := h
    obtain ⟨t, rfl⟩ := List.head?_eq_some_iff.1 (startsWith_char.1 hstarts)
    -- the two parentheses are different characters of the text
    have hne : t ≠ [] := by
      rintro rfl
      simp at hlength
    rw [List.getLast?_cons_of_ne_nil hne] at hends
    obtain ⟨name, rfl⟩ := List.getLast?_eq_some_iff.1 hends
    exact ⟨name, rfl⟩
  · rintro ⟨name, rfl⟩
    have hstarts : startsWith ['('] ('(' :: name ++ [')']) = true := rfl
    have hends : endsWithChar ')' ('(' :: name ++ [')']) = true := by
      rw [endsWithChar, List.getLast?_concat]
      rfl
    rw [isGroup, hstarts, hends]
    simp

section Parameter

variable {w : Text} (hne : w ≠ []) (hw : ∀ c ∈ w, isWord c = true)
include hne hw

/-- A word starts with no bracket and no dot. -/
theorem after?_word {c : Char} (hc : isWord c = false) (lit u : Text) :
    after? (c :: lit) (w ++ u) = none := by
  obtain ⟨a, w, rfl⟩ := List.exists_cons_of_ne_nil hne
  refine after?_cons_ne (fun h => ?_) lit (w ++ u)
  rw [h, hw a (by simp)] at hc
  exact Bool.false_ne_true hc.symm

theorem parameter?_one : parameter? ("[".toList ++ w ++ "]".toList) = some (w, false) := by
  have hbracket : after? ['['] (w ++ [']']) = none := after?_word hne hw (by decide) _ _
  have hdots : after? ['.', '.', '.'] (w ++ [']']) = none := after?_word hne hw (by decide) _ _
  have hword : word? (w ++ [']']) = some (w, [']']) := word?_append_cons hne hw (by decide) _
  simp [parameter?, after?, hbracket, hdots, hword]

theorem parameter?_rest : parameter? ("[...".toList ++ w ++ "]".toList) = some (w, true) := by
  have hword : word? (w ++ [']']) = some (w, [']']) := word?_append_cons hne hw (by decide) _
  simp [parameter?, after?, hword]

theorem parameter?_optionalRest :
    parameter? ("[[...".toList ++ w ++ "]]".toList) = some (w, true) := by
  have hword : word? (w ++ [']', ']']) = some (w, [']', ']']) :=
    word?_append_cons hne hw (by decide) _
  simp [parameter?, after?, hword]

end Parameter

/-- **A directory is read as it adds to the route path.** -/
theorem Adds.eq {s : Text} {route : Option Text} (h : Adds s route) :
    route = if isGroup s then none else some (segment s) := by
  have hbrackets {u : Text} : isGroup ('[' :: u) = false := by
    refine Bool.eq_false_iff.2 fun hgroup => ?_
    obtain ⟨name, hname⟩ := isGroup_iff.1 hgroup
    simp at hname
  cases h with
  | group name => rw [if_pos (isGroup_iff.2 ⟨name, rfl⟩)]
  | parameter hne hw =>
    rw [if_neg (by simp [hbrackets]), segment, parameter?_one hne hw]
    simp
  | rest hne hw =>
    rw [if_neg (by simp [hbrackets]), segment, parameter?_rest hne hw]
    simp
  | optionalRest hne hw =>
    rw [if_neg (by simp [hbrackets]), segment, parameter?_optionalRest hne hw]
    simp
  | plain hbracket hgroup =>
    have hparameter : parameter? s = none := by
      have hnone : after? ['['] s = none := by
        refine after?_eq_none_iff.2 fun ⟨t, ht⟩ => hbracket ?_
        rw [← ht]
        rfl
      simp [parameter?, hnone]
    rw [if_neg fun h => (isGroup_iff.1 h).elim hgroup, segment, hparameter]

theorem filterMap_route (S : List Directory) :
    S.filterMap (·.route) = ((S.map (·.text)).filter (!isGroup ·)).map segment := by
  induction S with
  | nil => rfl
  | cons d S ih =>
    rw [List.filterMap_cons, ih, d.adds.eq, List.map_cons, List.filter_cons]
    cases isGroup d.text <;> rfl

/-! ## The first router -/

/-- The name of the directory of a router. -/
def Router.name : Router → Text
  | .app => "app".toList
  | .pages => "pages".toList

/-- A path below the `api` directory of a router. -/
def Router.path (r : Router) (rest : Text) : Text := r.name ++ '/' :: ("api/".toList ++ rest)

/-- A path below some directories. -/
def below (directories : List Text) (path : Text) : Text := directories.flatMap (· ++ ['/']) ++ path

theorem below_cons (p : Text) (directories : List Text) (path : Text) :
    below (p :: directories) path = p ++ '/' :: below directories path := by
  simp [below]

/-- The router whose `api` directory the text starts with, and the path below it. -/
def routerAt? (t : Text) : Option ((Router × Text) × Text) :=
  [(Router.app, "app/api/".toList), (Router.pages, "pages/api/".toList)].findSome?
    fun (r, lit) => do
      let rest ← lastLine? (← after? lit t)
      return ((r, rest), [])

theorem routerFile_eq (before : Option Char) (t : Text) :
    routerFile before t =
      ((if before = none then [t] else []) ++ (after? ['/'] t).toList).findSome? routerAt? := rfl

theorem routerAt?_eq (t : Text) :
    routerAt? t =
      (((after? "app/api/".toList t).bind lastLine?).map fun rest => ((Router.app, rest), [])).or
        (((after? "pages/api/".toList t).bind lastLine?).map
          fun rest => ((Router.pages, rest), [])) := by
  have hat (r : Router) (found : Option Text) :
      (do let rest ← lastLine? (← found); return ((r, rest), ([] : Text))) =
        (found.bind lastLine?).map fun rest => ((r, rest), []) := by
    cases found with
    | none => rfl
    | some u => cases hu : lastLine? u <;> simp [hu]
  rw [routerAt?, List.findSome?_cons, List.findSome?_cons, List.findSome?_nil]
  dsimp only
  rw [hat, hat]
  cases (after? "app/api/".toList t).bind lastLine? <;>
    cases (after? "pages/api/".toList t).bind lastLine? <;> rfl

theorem lastLine?_eq_some {t : Text} (hne : t ≠ []) (hfeed : '\n' ∉ t) : lastLine? t = some t := by
  have hspan : t.span (· ≠ '\n') = (t, []) := by
    have hall : ∀ c ∈ t, decide (c ≠ '\n') = true := by
      intro c hc
      simpa using fun h : c = '\n' => hfeed (h ▸ hc)
    rw [List.span_eq_takeWhile_dropWhile, List.takeWhile_eq_self_iff.2 hall,
      List.dropWhile_eq_nil_iff.2 hall]
  rw [lastLine?, hspan]
  split
  · next h => exact absurd (Prod.mk.inj h).1 hne
  · next h => rw [(Prod.mk.inj h).1]
  · next h => exact absurd (Prod.mk.inj h).2 (by simp)
  · next hnil _ => exact absurd rfl (hnil t)

variable {rest : Text}

theorem routerAt?_api (r : Router) (hne : rest ≠ []) (hfeed : '\n' ∉ rest) :
    routerAt? (r.path rest) = some ((r, rest), []) := by
  have hline := lastLine?_eq_some hne hfeed
  cases r with
  | app =>
    have happ : after? "app/api/".toList (Router.app.path rest) = some rest := after?_append _ rest
    rw [routerAt?_eq, happ, Option.bind_some, hline]
    rfl
  | pages =>
    have happ : after? "app/api/".toList (Router.pages.path rest) = none := rfl
    have hpages : after? "pages/api/".toList (Router.pages.path rest) = some rest :=
      after?_append _ rest
    rw [routerAt?_eq, happ, hpages, Option.bind_none, Option.bind_some, hline]
    rfl

/-- What stands before the first slash is determined by the text. -/
theorem eq_of_append_slash {p q u v : Text} (hp : '/' ∉ p) (hq : '/' ∉ q)
    (h : p ++ '/' :: u = q ++ '/' :: v) : p = q ∧ u = v := by
  have hcut := cut?_char hp u
  rw [h, cut?_char hq v] at hcut
  obtain ⟨rfl, rfl⟩ := Prod.mk.inj (Option.some.inj hcut)
  exact ⟨rfl, rfl⟩

theorem not_api_prefix {p : Text} (hp : '/' ∉ p) (hne : p ≠ "api".toList) (u : Text) :
    ¬ "api/".toList <+: p ++ '/' :: u := by
  rintro ⟨v, hv⟩
  exact hne (eq_of_append_slash (p := "api".toList) (u := v) (by decide) hp hv).1.symm

/-- No router starts with a directory that `api` does not follow. -/
theorem routerAt?_eq_none {p u : Text} (hp : '/' ∉ p) (hu : ¬ "api/".toList <+: u) :
    routerAt? (p ++ '/' :: u) = none := by
  have hafter (name : Text) (hname : '/' ∉ name) :
      after? (name ++ '/' :: "api/".toList) (p ++ '/' :: u) = none := by
    refine after?_eq_none_iff.2 fun ⟨v, hv⟩ => hu ⟨v, ?_⟩
    rw [List.append_assoc, List.cons_append] at hv
    exact (eq_of_append_slash hname hp hv).2
  have happ : after? "app/api/".toList (p ++ '/' :: u) = none := hafter "app".toList (by decide)
  have hpages : after? "pages/api/".toList (p ++ '/' :: u) = none :=
    hafter "pages".toList (by decide)
  rw [routerAt?_eq, happ, hpages]
  rfl

/-- At a slash, only the router behind it counts. -/
theorem routerFile_slash (before : Option Char) (u : Text) :
    routerFile before ('/' :: u) = routerAt? u := by
  have hhere : routerAt? ('/' :: u) = none := rfl
  rw [routerFile_eq]
  cases before with
  | none => simp [after?, hhere]
  | some c => simp [after?]

/-- Inside of a name there is no router. -/
theorem routerFile_inside {c d : Char} (hc : c ≠ '/') (u : Text) :
    routerFile (some d) (c :: u) = none := by
  simp [routerFile_eq, after?, Ne.symm hc]

/-! ### The search

The lemmas are about the value of the hit that a search finds, whatever the position it counts
from. -/

theorem value_searchFrom?_of_eq_some {before : Option Char} {t u : Text} {v : Router × Text}
    (h : routerFile before t = some (v, u)) (pos : Nat) :
    (searchFrom? routerFile before pos t).map (·.value) = some v := by
  cases t with
  | nil => simp [searchFrom?, hitAt?, h]
  | cons c t => simp [searchFrom?, hitAt?, h]

theorem searchFrom?_of_eq_none {before : Option Char} {c : Char} {t : Text}
    (h : routerFile before (c :: t) = none) (pos : Nat) :
    searchFrom? routerFile before pos (c :: t) = searchFrom? routerFile (some c) (pos + 1) t := by
  simp [searchFrom?, hitAt?, h]

/-- The search goes on behind a name, or the rest of a name. -/
theorem value_searchFrom?_append {p t : Text} {v : Router × Text} (hp : '/' ∉ p)
    (h : ∀ before pos, (searchFrom? routerFile before pos t).map (·.value) = some v) (d : Char)
    (pos : Nat) :
    (searchFrom? routerFile (some d) pos (p ++ t)).map (·.value) = some v := by
  induction p generalizing d pos with
  | nil => exact h (some d) pos
  | cons c p ih =>
    obtain ⟨hc, hp⟩ := not_or.1 (mt List.mem_cons.2 hp)
    rw [List.cons_append, searchFrom?_of_eq_none (routerFile_inside (Ne.symm hc) (p ++ t))]
    exact ih hp c (pos + 1)

section Search

variable {directories : List Text} (hdirs : ∀ p ∈ directories, '/' ∉ p ∧ p ≠ "api".toList)
  (r : Router) (hne : rest ≠ []) (hfeed : '\n' ∉ rest)
include hdirs

theorem not_api_prefix_below (u : Text) : ¬ "api/".toList <+: below directories (r.path u) := by
  cases directories with
  | nil => cases r <;> exact not_api_prefix (by decide) (by decide) _
  | cons p directories =>
    obtain ⟨hp, hapi⟩ := hdirs p (by simp)
    rw [below_cons]
    exact not_api_prefix hp hapi _

include hne hfeed

theorem value_searchFrom?_slash (before : Option Char) (pos : Nat) :
    (searchFrom? routerFile before pos
      ('/' :: below directories (r.path rest))).map (·.value) = some (r, rest) := by
  induction directories generalizing before pos with
  | nil =>
    have hhere := (routerFile_slash before _).trans (routerAt?_api r hne hfeed)
    exact value_searchFrom?_of_eq_some hhere pos
  | cons p directories ih =>
    obtain ⟨hp, hdirs⟩ := List.forall_mem_cons.1 hdirs
    have hnone := routerAt?_eq_none hp.1 (not_api_prefix_below hdirs r rest)
    rw [below_cons, searchFrom?_of_eq_none ((routerFile_slash before _).trans hnone)]
    exact value_searchFrom?_append hp.1 (ih hdirs) '/' (pos + 1)

/-- **The first router below directories that are not named `api` is found.** -/
theorem search?_below :
    (search? routerFile (below directories (r.path rest))).map (·.value) = some (r, rest) := by
  have hslash := fun {directories : List Text}
      (hdirs : ∀ p ∈ directories, '/' ∉ p ∧ p ≠ "api".toList) =>
    value_searchFrom?_slash hdirs r hne hfeed
  match directories with
  | [] =>
    have hhere : routerFile none (r.path rest) = some ((r, rest), []) := by
      simp [routerFile_eq, routerAt?_api r hne hfeed]
    exact value_searchFrom?_of_eq_some hhere 0
  | [] :: directories => exact hslash (List.forall_mem_cons.1 hdirs).2 none 0
  | (c :: p) :: directories =>
    obtain ⟨hp, hdirs⟩ := List.forall_mem_cons.1 hdirs
    obtain ⟨hc, hrest⟩ := not_or.1 (mt List.mem_cons.2 hp.1)
    have hnone : routerFile none (c :: (p ++ '/' :: below directories (r.path rest))) = none := by
      have hstart := routerAt?_eq_none hp.1 (not_api_prefix_below hdirs r rest)
      rw [List.cons_append] at hstart
      simp [routerFile_eq, after?, hc, hstart]
    rw [below_cons, search?, List.cons_append, searchFrom?_of_eq_none hnone]
    exact value_searchFrom?_append hrest (hslash hdirs) c 1

end Search

/-! ## The suffix -/

/-- **The suffix is behind the last dot.** -/
theorem stem_append {ext : Text} (hdot : '.' ∉ ext) (t : Text) : stem (t ++ '.' :: ext) = t := by
  have hcut : cut? ['.'] (t ++ '.' :: ext).reverse = some (ext.reverse, t.reverse) := by
    rw [List.reverse_append, List.reverse_cons, List.append_assoc, List.singleton_append]
    exact cut?_char (by simpa using hdot) _
  rw [stem, hcut]
  exact List.reverse_reverse t

/-- The path of a file below directories, without its suffix, splits into the names of the
directories and that of the file. -/
theorem splitChar_stem {names : List Text} {base ext : Text} (hnames : ∀ n ∈ names, '/' ∉ n)
    (hbase : '/' ∉ base) (hdot : '.' ∉ ext) :
    splitChar '/' (stem (Text.join ['/'] (names ++ [base ++ '.' :: ext]))) = names ++ [base] := by
  have hstem : stem (Text.join ['/'] (names ++ [base ++ '.' :: ext])) =
      Text.join ['/'] (names ++ [base]) := by
    rw [join_append (by simp), join_singleton, ← List.append_assoc, stem_append hdot,
      join_append (by simp), join_singleton]
  rw [hstem, splitChar_join (by simp)]
  intro n hn
  rcases List.mem_append.1 hn with hn | hn
  · exact hnames n hn
  · rwa [List.mem_singleton.1 hn]

/-! ## Route paths -/

/-- The path below the `api` directory of a file with a suffix in some directories. -/
def fileIn (S : List Directory) (base ext : Text) : Text :=
  Text.join ['/'] (S.map (·.text) ++ [base ++ '.' :: ext])

section Route

variable {P : List Text} (hP : ∀ p ∈ P, '/' ∉ p ∧ p ≠ "api".toList) (S : List Directory)
  {ext : Text} (hext : '.' ∉ ext ∧ '/' ∉ ext ∧ '\n' ∉ ext)
include hP hext

/-- The route path of a file is made of its directories, if its name without the suffix is one that
the router takes. -/
theorem ofFile?_eq (r : Router) {base : Text} (hbase : '/' ∉ base ∧ '\n' ∉ base) :
    ofFile? (below P (r.path (fileIn S base ext))) =
      (directories? r (S.map (·.text) ++ [base])).map fun segments =>
        '/' :: Text.join ['/'] ("api".toList :: ((segments.filter (!isGroup ·)).map segment)) := by
  have hne : fileIn S base ext ≠ [] := by
    rw [fileIn, join_append (by simp), join_singleton]
    simp
  have hfeed : '\n' ∉ fileIn S base ext := by
    rw [fileIn, join_append (by simp), join_singleton]
    have hdirs : ∀ d ∈ S, '\n' ∉ d.text ++ ['/'] := fun d _ => by simp [d.noLineFeed]
    simpa [hbase.2, hext.2.2] using hdirs
  obtain ⟨hit, hsearch, hvalue⟩ := Option.map_eq_some_iff.1 (search?_below hP r hne hfeed)
  have hsplit : splitChar '/' (stem (fileIn S base ext)) = S.map (·.text) ++ [base] := by
    refine splitChar_stem (fun n hn => ?_) hbase.1 hext.1
    obtain ⟨d, -, rfl⟩ := List.mem_map.1 hn
    exact d.noSlash
  rw [ofFile?, hsearch, Option.map_eq_bind]
  simp only [Option.bind_eq_bind, Option.bind_some, hvalue, hsplit]
  rfl

/-- **A route file has the route path that its directories spell**, as `route` file of the one
router and as `index` file of the other, and no other file of the first router has a route path. -/
theorem ofFile?_below :
    ofFile? (below P ("app/api/".toList ++ fileIn S "route".toList ext)) =
      some ('/' :: Text.join ['/'] ("api".toList :: S.filterMap (·.route))) ∧
    ofFile? (below P ("pages/api/".toList ++ fileIn S "index".toList ext)) =
      some ('/' :: Text.join ['/'] ("api".toList :: S.filterMap (·.route))) ∧
    ∀ base, '/' ∉ base → '\n' ∉ base → base ≠ "route".toList →
      ofFile? (below P ("app/api/".toList ++ fileIn S base ext)) = none := by
  have hroute (segments : List Text) :
      directories? .app (segments ++ ["route".toList]) = some segments := by
    simp [directories?]
  have hindex (segments : List Text) :
      directories? .pages (segments ++ ["index".toList]) = some segments := by
    simp [directories?]
  refine ⟨?_, ?_, fun base hslash hfeed hne => ?_⟩
  · refine (ofFile?_eq hP S hext .app (by decide)).trans ?_
    rw [hroute, Option.map_some, filterMap_route]
  · refine (ofFile?_eq hP S hext .pages (by decide)).trans ?_
    rw [hindex, Option.map_some, filterMap_route]
  · refine (ofFile?_eq hP S hext .app ⟨hslash, hfeed⟩).trans ?_
    rw [directories?, List.getLast?_concat, if_neg (by simpa using hne), Option.map_none]

end Route

/-- Directories of several kinds; one has a dot and the name of a router in it. -/
def sampleDirectories : List Directory :=
  [⟨_, _, .group "admin".toList, by decide, by decide⟩,
   ⟨_, _, .parameter (w := "id".toList) (by decide) (by decide), by decide, by decide⟩,
   ⟨"v1.app".toList, _, .plain (by decide) (by simp), by decide, by decide⟩,
   ⟨_, _, .optionalRest (w := "slug".toList) (by decide) (by decide), by decide, by decide⟩]

theorem ofFile?_below_sampleDirectories :
    below ["app".toList]
        ("app/api/".toList ++ fileIn sampleDirectories "route".toList "ts".toList) =
        "app/app/api/(admin)/[id]/v1.app/[[...slug]]/route.ts".toList ∧
      ofFile? (below ["app".toList]
          ("app/api/".toList ++ fileIn sampleDirectories "route".toList "ts".toList)) =
        some "/api/:id/v1.app/:slug*".toList ∧
      ofFile? (below ["app".toList]
          ("pages/api/".toList ++ fileIn sampleDirectories "index".toList "ts".toList)) =
        some "/api/:id/v1.app/:slug*".toList ∧
      ofFile? (below ["app".toList]
          ("app/api/".toList ++ fileIn sampleDirectories "page".toList "ts".toList)) = none := by
  obtain ⟨happ, hpages, hother⟩ :=
    @ofFile?_below ["app".toList] (by decide) sampleDirectories "ts".toList (by decide)
  have hroute : '/' :: Text.join ['/'] ("api".toList :: sampleDirectories.filterMap (·.route)) =
      "/api/:id/v1.app/:slug*".toList := by decide
  rw [hroute] at happ hpages
  exact ⟨by decide, happ, hpages, hother "page".toList (by decide) (by decide) (by decide)⟩

end CodeIndex.RoutePath
