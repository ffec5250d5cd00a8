import Mathlib.Data.List.Nodup
import CodeIndex.Endpoint.Decorated
import CodeIndex.Proofs.Extract
import CodeIndex.Proofs.Indented.Placement
import CodeIndex.Proofs.Text.Lines

/-!
# The lines of a route decorator belong to one function

The lines above a function are searched upwards, at most ten of them and up to the nearest header
line. `NearestAbove` says what such a search finds (`findSome?_decoratorWindow_iff`). Every line on
which the scan of the source records a function, a class or a method is a header line
(`isHeaderLine_of_defHeader?`, `isHeaderLine_of_classHeader?`). So what a function takes from the
lines above it stands behind all headers before it, and no two functions take anything from the same
line (`decorated_belongs`).
-/

namespace CodeIndex

/-- The lines of the headers: of functions, and of classes with their methods. -/
def Declarations.headerLines (d : Declarations) : List Int :=
  d.functions.map (·.line) ++ d.classes.flatMap fun c => c.line :: c.methods.map (·.line)

namespace Indented

open Text

/-! ## Header lines -/

theorem isHeaderLine_of_defHeader? {line : Text} {h : DefHeader} (hd : defHeader? line = some h) :
    isHeaderLine line = true := by
  obtain ⟨s, a, s', s'', rest, rfl, -, ha, hs, hne, hs', -⟩ := defHeader?_eq_some_iff.1 hd
  set u := h.name ++ (s'' ++ '(' :: rest)
  have hdef : trimLeft ("def".toList ++ (s' ++ u)) = "def".toList ++ (s' ++ u) :=
    trimLeft_cons (by decide) _
  have hblanks : (blanks1? (s' ++ u)).isSome = true := by
    rw [blanks1?_append hne hs', Option.isSome_some]
  rw [isHeaderLine, trimLeft_append hs]
  split at ha
  · obtain ⟨b, rfl, hbne, hb⟩ := ha
    have hasync : trimLeft ("async".toList ++ b ++ ("def".toList ++ (s' ++ u))) =
        "async".toList ++ (b ++ ("def".toList ++ (s' ++ u))) := by
      rw [List.append_assoc]
      exact trimLeft_cons (by decide) _
    simp only [hasync, after?_append, Option.bind_some, blanks1?_append hbne hb, hdef,
      List.any_cons, hblanks, Bool.true_or]
  · subst ha
    simp only [List.nil_append, hdef, after?_append, Option.bind_some, List.any_cons, hblanks,
      Bool.true_or, Bool.or_true]

theorem isHeaderLine_of_classHeader? {line name : Text} (hc : classHeader? line = some name) :
    isHeaderLine line = true := by
  obtain ⟨s, s', c, rest, rfl, hne, hs, -⟩ := classHeader?_eq_some_iff.1 hc
  set u := name ++ (s' ++ c :: rest)
  have hclass : trimLeft ("class".toList ++ (s ++ u)) = "class".toList ++ (s ++ u) :=
    trimLeft_cons (by decide) _
  have hblanks : (blanks1? (s ++ u)).isSome = true := by
    rw [blanks1?_append hne hs, Option.isSome_some]
  simp only [isHeaderLine, hclass, after?_append, Option.bind_some, List.any_cons, hblanks,
    Bool.true_or, Bool.or_true]

/-- **Every recorded header stands on a header line.** -/
theorem WellPlaced.isHeaderLine {src : List Text} {d : Declarations} (h : WellPlaced src d)
    {n : Int} (hn : n ∈ d.headerLines) : LineIs src n fun line => isHeaderLine line = true := by
  simp only [Declarations.headerLines, List.mem_append, List.mem_map, List.mem_flatMap,
    List.mem_cons] at hn
  rcases hn with ⟨f, hf, rfl⟩ | ⟨c, hc, rfl | ⟨m, hm, rfl⟩⟩
  · obtain ⟨i, line, hi, hread, ⟨header, hheader, -⟩, -⟩ := h.functionDeclared f hf
    exact ⟨i, line, hi, hread, isHeaderLine_of_defHeader? hheader⟩
  · obtain ⟨i, line, hi, hread, hheader, -⟩ := h.classDeclared c hc
    exact ⟨i, line, hi, hread, isHeaderLine_of_classHeader? hheader⟩
  · obtain ⟨i, line, hi, hread, header, hheader, -⟩ := h.methodDeclared c hc m hm
    exact ⟨i, line, hi, hread, isHeaderLine_of_defHeader? hheader⟩

end Indented

namespace Endpoint

open Text Indented

/-! ## The search upwards -/

section NearestAbove

variable {α : Type} {p : Text → Option α} {src : List Text} {a : α}

/-- The nearest line above line `n` on which `p` reads something is line `m`, at most ten lines up,
and no header line comes before it. -/
structure NearestAbove (p : Text → Option α) (src : List Text) (n m : Int) (a : α) : Prop where
  read : LineIs src m fun line => p line = some a ∧ isHeaderLine line = false
  above : m < n
  near : n ≤ m + 10
  between : ∀ k, m < k → k < n → LineIs src k fun line => p line = none ∧ isHeaderLine line = false

theorem findSome?_takeWhile_iff {q : Text → Bool} {ls : List Text} :
    (ls.takeWhile q).findSome? p = some a ↔ ∃ j : Nat,
      (∃ line, ls[j]? = some line ∧ p line = some a ∧ q line = true) ∧
        ∀ i < j, ∃ line, ls[i]? = some line ∧ p line = none ∧ q line = true := by
  induction ls with
  | nil => simp
  | cons l ls ih =>
    cases hq : q l with
    | false =>
      -- nothing is searched, and the first line admits no other
      rw [List.takeWhile_cons_of_neg (by simp [hq]), List.findSome?_nil]
      refine ⟨nofun, ?_⟩
      rintro ⟨j, ⟨line, hline, -, hqj⟩, hbefore⟩
      cases j with
      | zero => simp_all
      | succ j =>
        obtain ⟨line, hline, -, hq0⟩ := hbefore 0 (Nat.succ_pos j)
        simp_all
    | true =>
      rw [List.takeWhile_cons_of_pos hq, List.findSome?_cons]
      cases hp : p l with
      | some b =>
        constructor
        · intro h
          exact ⟨0, ⟨l, rfl, hp.trans h, hq⟩, fun i hi => absurd hi (Nat.not_lt_zero i)⟩
        · rintro ⟨j, ⟨line, hline, hpj, -⟩, hbefore⟩
          cases j with
          | zero =>
            obtain rfl : l = line := Option.some.inj hline
            exact hp.symm.trans hpj
          | succ j =>
            obtain ⟨line, hline, hp0, -⟩ := hbefore 0 (Nat.succ_pos j)
            simp_all
      | none =>
        dsimp only
        rw [ih]
        constructor
        · rintro ⟨j, hj, hbefore⟩
          refine ⟨j + 1, hj, fun i hi => ?_⟩
          cases i with
          | zero => exact ⟨l, rfl, hp, hq⟩
          | succ i => exact hbefore i (Nat.lt_of_succ_lt_succ hi)
        · rintro ⟨j, ⟨line, hline, hpj, hqj⟩, hbefore⟩
          cases j with
          | zero => simp_all
          | succ j => exact ⟨j, ⟨line, hline, hpj, hqj⟩, fun i hi => hbefore (i + 1) (by omega)⟩

/-- The lines above the line with index `i`, the nearest one first. -/
theorem getElem?_reverse_drop_take {i j : Nat} (hi : i ≤ src.length) (line : Text) :
    ((src.take i).drop (i - 10)).reverse[j]? = some line ↔
      j < 10 ∧ j < i ∧ src[i - 1 - j]? = some line := by
  have hlength : ((src.take i).drop (i - 10)).length = i - (i - 10) := by
    rw [List.length_drop, List.length_take_of_le hi]
  by_cases hj : j < i - (i - 10)
  · rw [List.getElem?_reverse (hlength ▸ hj), hlength, List.getElem?_drop,
      List.getElem?_take_of_lt (by omega)]
    have hindex : i - 10 + (i - (i - 10) - 1 - j) = i - 1 - j := by omega
    rw [hindex]
    exact ⟨fun h => ⟨by omega, by omega, h⟩, fun h => h.2.2⟩
  · rw [List.getElem?_eq_none (by rw [List.length_reverse, hlength]; omega)]
    exact ⟨nofun, fun h => absurd h.1 (by omega)⟩

theorem decoratorWindow_eq {i : Nat} (hi : i ≤ src.length) :
    decoratorWindow src (i + 1) =
      ((src.take i).drop (i - 10)).reverse.takeWhile (!isHeaderLine ·) := by
  have hhigh : (min ((i : Int) + 1 - 1) src.length).toNat = i := by omega
  have hlow : (max 0 ((i : Int) + 1 - 11)).toNat = i - 10 := by omega
  rw [decoratorWindow, hhigh, hlow]

/-- **The search above a line finds the nearest line on which something is read.** -/
theorem findSome?_decoratorWindow_iff {n : Int} (hn : 1 ≤ n ∧ n ≤ src.length) :
    (decoratorWindow src n).findSome? p = some a ↔ ∃ m, NearestAbove p src n m a := by
  obtain ⟨i, rfl⟩ : ∃ i : Nat, n = i + 1 := ⟨(n - 1).toNat, by omega⟩
  rw [decoratorWindow_eq (by omega), findSome?_takeWhile_iff]
  simp only [getElem?_reverse_drop_take (show i ≤ src.length by omega), Bool.not_eq_true']
  constructor
  · rintro ⟨j, ⟨line, ⟨hj, hji, hline⟩, hp, hq⟩, hbefore⟩
    refine ⟨i - j, ⟨i - 1 - j, line, by omega, hline, hp, hq⟩, by omega, by omega,
      fun k hk hkn => ?_⟩
    obtain ⟨l, ⟨-, -, hl⟩, hpl, hql⟩ := hbefore (i - k).toNat (by omega)
    exact ⟨i - 1 - (i - k).toNat, l, by omega, hl, hpl, hql⟩
  · rintro ⟨m, ⟨x, line, rfl, hline, hp, hq⟩, habove, hnear, hbetween⟩
    refine ⟨i - 1 - x, ⟨line, ⟨by omega, by omega, ?_⟩, hp, hq⟩, fun j hj => ?_⟩
    · rwa [show i - 1 - (i - 1 - x) = x by omega]
    · obtain ⟨y, l, hy, hl, hpl, hql⟩ := hbetween (i - j) (by omega) (by omega)
      refine ⟨l, ⟨by omega, by omega, ?_⟩, hpl, hql⟩
      rwa [show i - 1 - j = y by omega]

end NearestAbove

/-! ## What a function takes from the lines above it -/

/-- The methods that a line lists. -/
def lineMethods? (line : Text) : Option (List Text) :=
  (search? methodsList line).map fun hit => listedMethods hit.value

/-- The methods of the function on line `n`: those of the nearest list above it, or one by the verb
of its decorator where there is no list or an empty one. -/
def GivesMethods (src : List Text) (n : Int) (verb : Text) (methods : List Text) : Prop :=
  (methods ≠ [] ∧ ∃ m, NearestAbove lineMethods? src n m methods) ∨
    ((∀ m ms, NearestAbove lineMethods? src n m ms → ms = []) ∧
      methods = [if verb = "ROUTE".toList then "GET".toList else verb])

/-- Line `m` gives the function on line `n` its path or its list of methods. -/
def Supplies (src : List Text) (n m : Int) : Prop :=
  (∃ a, NearestAbove routeDecorator? src n m a) ∨ ∃ ms, NearestAbove lineMethods? src n m ms

/-- Line `m` stands above line `n`, at most ten lines up, and behind all headers before line `n`. -/
structure BelongsTo (headers : List Int) (n m : Int) : Prop where
  above : m < n
  near : n ≤ m + 10
  behindHeaders : ∀ h ∈ headers, h < n → h < m

/-- The endpoints of a function: none without a route decorator above it, and otherwise one for each
of its methods, with the path of the decorator. -/
inductive Routed (src : List Text) (f : FunctionDecl) : List Endpoint → Prop
  | none (h : ∀ m a, ¬ NearestAbove routeDecorator? src f.line m a) : Routed src f []
  | some {verb path : Text} {methods : List Text} {m : Int} {es : List Endpoint}
      (decorator : NearestAbove routeDecorator? src f.line m (verb, path))
      (given : GivesMethods src f.line verb methods)
      (each : es.map (fun e => (e.method, e.path, e.handler, e.line)) =
        methods.map fun method => (method, path, f.name, f.line)) : Routed src f es

section Above

variable {src : List Text} {n : Int}

theorem givesMethods_of_window (hn : 1 ≤ n ∧ n ≤ src.length) (verb : Text) :
    GivesMethods src n verb
      (match (decoratorWindow src n).findSome? lineMethods? with
        | some (m :: ms) => m :: ms
        | _ => [if verb = "ROUTE".toList then "GET".toList else verb]) := by
  split
  · next m ms h => exact .inl ⟨by simp, (findSome?_decoratorWindow_iff hn).1 h⟩
  · next hempty =>
    refine .inr ⟨fun m ms hms => ?_, rfl⟩
    -- a list of methods would have been taken
    cases ms with
    | nil => rfl
    | cons method ms => exact absurd ((findSome?_decoratorWindow_iff hn).2 ⟨m, hms⟩) (hempty _ _)

/-- **What the decorators above a line give is read on the nearest lines.** -/
theorem decoratorsAbove?_spec (hn : 1 ≤ n ∧ n ≤ src.length) :
    (decoratorsAbove? src n = none ∧ ∀ m a, ¬ NearestAbove routeDecorator? src n m a) ∨
      ∃ verb path methods m, decoratorsAbove? src n = some (path, methods) ∧
        NearestAbove routeDecorator? src n m (verb, path) ∧ GivesMethods src n verb methods := by
  rw [decoratorsAbove?]
  cases hroute : (decoratorWindow src n).findSome? routeDecorator? with
  | none =>
    refine .inl ⟨rfl, fun m a h => ?_⟩
    rw [(findSome?_decoratorWindow_iff hn).2 ⟨m, h⟩] at hroute
    exact absurd hroute (by simp)
  | some a =>
    obtain ⟨verb, path⟩ := a
    obtain ⟨m, hm⟩ := (findSome?_decoratorWindow_iff hn).1 hroute
    refine .inr ⟨verb, path, _, m, ?_, hm, givesMethods_of_window hn verb⟩
    change (match (decoratorWindow src n).findSome? lineMethods? with
      | some (m :: ms) => some (path, m :: ms)
      | _ => some (path, [if verb = "ROUTE".toList then "GET".toList else verb])) = _
    split <;> rfl

theorem NearestAbove.belongsTo {α : Type} {p : Text → Option α} {a : α} {m : Int}
    (h : NearestAbove p src n m a) {headers : List Int}
    (hheaders : ∀ k ∈ headers, LineIs src k fun line => isHeaderLine line = true) :
    BelongsTo headers n m := by
  refine ⟨h.above, h.near, fun k hk hkn => ?_⟩
  by_contra hmk
  -- a header at or behind line `m` would have ended the search
  obtain ⟨i, line, hi, hline, hheader⟩ := hheaders k hk
  obtain ⟨j, line', hj, hline', hno⟩ : LineIs src k fun line => isHeaderLine line = false := by
    rcases Int.lt_or_eq_of_le (Int.not_lt.1 hmk) with hlt | rfl
    · obtain ⟨j, line', hj, hline', -, hno⟩ := h.between k hlt hkn
      exact ⟨j, line', hj, hline', hno⟩
    · obtain ⟨j, line', hj, hline', -, hno⟩ := h.read
      exact ⟨j, line', hj, hline', hno⟩
  obtain rfl : i = j := by omega
  obtain rfl : line = line' := Option.some.inj (hline.symm.trans hline')
  exact absurd (hheader.symm.trans hno) (by decide)

theorem Supplies.belongsTo {m : Int} (h : Supplies src n m) {headers : List Int}
    (hheaders : ∀ k ∈ headers, LineIs src k fun line => isHeaderLine line = true) :
    BelongsTo headers n m := by
  obtain ⟨a, h⟩ | ⟨ms, h⟩ := h <;> exact h.belongsTo hheaders

/-- **A line belongs to at most one of the headers.** -/
theorem BelongsTo.unique {headers : List Int} {n' m : Int} (h : BelongsTo headers n m)
    (h' : BelongsTo headers n' m) (hn : n ∈ headers) (hn' : n' ∈ headers) : n = n' := by
  by_contra hne
  rcases Int.lt_or_gt_of_ne hne with hlt | hlt
  · have := h'.behindHeaders n hn hlt
    have := h.above
    omega
  · have := h.behindHeaders n' hn' hlt
    have := h'.above
    omega

end Above

/-! ## All functions of a source -/

/-- **The lines of a route decorator belong to one function.** The endpoints come function by
function, from top to bottom, and are those that the nearest lines above the function give it. A
line that gives a function its path or its methods stands above the function, at most ten lines up,
and behind all headers that the scan of the source has recorded before the function; so it gives
nothing to any other function. -/
theorem decorated_belongs {options : OutlineOptions} {root path content : Text} {outline : Outline}
    {broken : Bool}
    (hextract : Extractor.python.extract options root path content = .ok (outline, broken)) :
    (outline.functions.map (·.line)).Pairwise (· < ·) ∧
      (∃ group : FunctionDecl → List Endpoint,
        decorated outline content = outline.functions.flatMap group ∧
          ∀ f ∈ outline.functions, Routed (lines content) f (group f)) ∧
      (∀ f ∈ outline.functions, ∀ m, Supplies (lines content) f.line m →
        BelongsTo (scanLines options {} 1 (lines content)).found.headerLines f.line m) ∧
      ∀ f ∈ outline.functions, ∀ g ∈ outline.functions, ∀ m, Supplies (lines content) f.line m →
        Supplies (lines content) g.line m → f = g := by
  have hplaced := wellPlaced_found options (lines content)
  have hfunctions := functions_of_extract hextract
  have hordered : (outline.functions.map (·.line)).Pairwise (· < ·) :=
    hfunctions ▸ hplaced.functionsOrdered
  have hheader : ∀ f ∈ outline.functions,
      f.line ∈ (scanLines options {} 1 (lines content)).found.headerLines := fun f hf =>
    List.mem_append_left _ (List.mem_map.2 ⟨f, hfunctions ▸ hf, rfl⟩)
  have hbelongs : ∀ n m, Supplies (lines content) n m →
      BelongsTo (scanLines options {} 1 (lines content)).found.headerLines n m := fun n m h =>
    h.belongsTo fun k hk => hplaced.isHeaderLine hk
  refine ⟨hordered, ⟨_, rfl, fun f hf => ?_⟩, fun f _ m => hbelongs f.line m,
    fun f hf g hg m hfm hgm => ?_⟩
  · have hinside := hplaced.inside f.line <| by
      rw [hfunctions] at hf
      exact List.mem_append_left _ (List.mem_append_left _ (List.mem_map_of_mem hf))
    obtain ⟨hnone, hno⟩ | ⟨verb, path, methods, m, hsome, hroute, hmethods⟩ :=
      decoratorsAbove?_spec hinside
    · simp only [hnone]
      exact .none hno
    · simp only [hsome]
      exact .some hroute hmethods (by simp)
  · have hline := (hbelongs _ m hfm).unique (hbelongs _ m hgm) (hheader f hf) (hheader g hg)
    exact List.inj_on_of_nodup_map (hordered.imp Int.ne_of_lt) hf hg hline

/-- Two functions with route decorators, the first of which lists its methods. -/
def routesModel : Text :=
  unlines (["@app.route('/a', methods=['GET', 'POST'])", "def a():", "    pass", "@app.get('/b')",
    "def b():"].map String.toList)

theorem decorated_belongs_routesModel :
    ∃ outline, Extractor.python.extract {} "/".toList "/m.py".toList routesModel =
        .ok (outline, false) ∧
      (decorated outline routesModel).map (fun e => (e.method, e.path, e.line)) =
        [("GET".toList, "/a".toList, 2), ("POST".toList, "/a".toList, 2),
          ("GET".toList, "/b".toList, 5)] ∧
      ∀ f ∈ outline.functions, ∀ g ∈ outline.functions, ∀ m,
        Supplies (lines routesModel) f.line m → Supplies (lines routesModel) g.line m → f = g := by
  have hextract := @extract_python "/m.py".toList (by decide +kernel) {} "/".toList routesModel
  exact ⟨_, hextract, by decide +kernel, (decorated_belongs hextract).2.2.2⟩

end Endpoint

end CodeIndex
