import CodeIndex.Proofs.Json.Roundtrip
import CodeIndex.Proofs.Path
import CodeIndex.Proofs.Report.Directories
import CodeIndex.Proofs.Text.Cut
import CodeIndex.Report.Markdown
import Mathlib.Tactic.Common

/-!
# The tables of the report

A row of a Markdown table has a cell between any two of its bars, those behind a backslash aside.
The report writes the texts of an index into its rows as they are, so that a bar in a text makes a
cell of its own: a row has as many cells as the header of its table, and one more for each bar in
the texts that it shows (`separators_endpointRow`, `separators_columnRow`).

If no text of the index has a line feed, the lines of the report that start with a bar are those of
its tables, each with its header and its rows: the totals, the endpoints, and the columns of each
table of the schema (`renderMarkdown_tables`).
-/

namespace CodeIndex

/-! ## The texts of an index -/

/-- The texts of a function. -/
def FunctionDecl.texts (f : FunctionDecl) : List Text :=
  f.name :: f.params ++ f.returnType.toList ++ f.description.toList

/-- The texts of a class. -/
def ClassDecl.texts (c : ClassDecl) : List Text :=
  c.name :: c.methods.flatMap (·.texts) ++ c.properties ++ c.description.toList

/-- The texts of an interface. -/
def InterfaceDecl.texts (i : InterfaceDecl) : List Text :=
  i.name :: i.properties ++ i.description.toList

/-- The texts of an import. -/
def ImportDecl.texts (i : ImportDecl) : List Text := i.source :: i.imports

/-- The texts of an outline. -/
def Outline.texts (o : Outline) : List Text :=
  o.path :: o.relativePath :: o.language :: o.functions.flatMap (·.texts) ++
    o.classes.flatMap (·.texts) ++ o.interfaces.flatMap (·.texts) ++ o.imports.flatMap (·.texts)

/-- The texts of an endpoint. -/
def Endpoint.texts (e : Endpoint) : List Text := [e.method, e.path, e.handler, e.file]

/-- The texts of a column. -/
def Column.texts (c : Column) : List Text := c.name :: c.type :: c.foreign.toList

/-- The texts of a table. -/
def Table.texts (t : Table) : List Text := t.name :: t.file :: t.columns.flatMap (·.texts)

/-- The texts of an index. -/
def ProjectIndex.texts (p : ProjectIndex) : List Text :=
  p.projectName :: p.generated :: p.files.flatMap (·.texts) ++ p.techStack ++
    p.endpoints.flatMap (·.texts) ++ p.tables.flatMap (·.texts)

namespace Markdown

/-! ## Cells -/

/-- The bars of a line that no backslash stands before; a backslash before a backslash makes it an
ordinary character. -/
def separators : Text → Nat
  | [] => 0
  | '\\' :: _ :: t => separators t
  | '|' :: t => separators t + 1
  | _ :: t => separators t

theorem separators_of_not_mem {t : Text} (h : '|' ∉ t) : separators t = 0 := by
  fun_induction separators t with
  | case1 => rfl
  | case2 c t ih => exact ih fun hm => h (by simp [hm])
  | case3 t => simp at h
  | case4 c t _ _ ih => exact ih fun hm => h (by simp [hm])

theorem separators_cons {c : Char} (hbar : c ≠ '|') (hslash : c ≠ '\\') (t : Text) :
    separators (c :: t) = separators t := by
  rw [separators]
  · exact fun d u h _ => hslash h
  · exact hbar

/-- A character that is neither a bar nor a backslash parts the bars before it from those after
it. -/
theorem separators_append_cons {c : Char} (hbar : c ≠ '|') (hslash : c ≠ '\\') (t u : Text) :
    separators (t ++ c :: u) = separators t + separators u := by
  fun_induction separators t with
  | case1 => rw [List.nil_append, separators_cons hbar hslash, Nat.zero_add]
  | case2 d t ih => rw [List.cons_append, List.cons_append, separators, ih]
  | case3 t ih =>
    rw [List.cons_append, separators, ih]
    omega
  | case4 d t hescape hbar' ih =>
    by_cases hd : d = '\\'
    · -- a backslash at the end of the text, before the character
      obtain rfl : t = [] := by
        cases t with
        | nil => rfl
        | cons x t => exact absurd rfl (hescape x t hd)
      rw [hd, List.cons_append, List.nil_append, separators, separators, Nat.zero_add]
    · rw [List.cons_append, separators_cons hbar' hd, ih]

/-- Texts without bars and backslashes around a text make no difference. -/
theorem separators_plain_append {u : Text} (hu : ∀ c ∈ u, c ≠ '|' ∧ c ≠ '\\') (t : Text) :
    separators (u ++ t) = separators t := by
  induction u with
  | nil => rfl
  | cons c u ih =>
    obtain ⟨hc, hu⟩ := List.forall_mem_cons.1 hu
    rw [List.cons_append, separators_cons hc.1 hc.2, ih hu]

theorem separators_append_plain {u : Text} (hu : ∀ c ∈ u, c ≠ '|' ∧ c ≠ '\\') (t : Text) :
    separators (t ++ u) = separators t := by
  cases u with
  | nil => rw [List.append_nil]
  | cons c u =>
    obtain ⟨hc, hu⟩ := List.forall_mem_cons.1 hu
    have hnone : separators u = 0 := separators_of_not_mem fun hm => (hu _ hm).1 rfl
    rw [separators_append_cons hc.1 hc.2, hnone, Nat.add_zero]

/-- **A row has a bar before each cell, one behind the last, and those of the cells.** -/
theorem separators_row (cells : List Text) :
    separators (row cells) = cells.length + 1 + (cells.map separators).sum := by
  have hcells : separators (cells.flatMap fun c => cat [" ".toList, c, " |".toList]) =
      cells.length + (cells.map separators).sum := by
    induction cells with
    | nil => rfl
    | cons cell cells ih =>
      have hcell (u : Text) : separators (cat [" ".toList, cell, " |".toList] ++ u) =
          separators cell + (separators u + 1) := by
        have hcat :
            cat [" ".toList, cell, " |".toList] ++ u = ' ' :: (cell ++ ' ' :: '|' :: u) := by
          simp [cat]
        rw [hcat, separators_cons (by decide) (by decide),
          separators_append_cons (by decide) (by decide), separators]
      rw [List.flatMap_cons, hcell, ih, List.length_cons, List.map_cons, List.sum_cons]
      omega
  have hrow : row cells = '|' :: cells.flatMap fun c => cat [" ".toList, c, " |".toList] := by
    simp [row, cat]
  rw [hrow, separators, hcells]
  omega

/-! ### The cells of an endpoint and of a column -/

/-- The header of the table of endpoints. -/
def endpointHeader : Text := "| Method | Path | Handler | Auth | Location |".toList

/-- The header of a table of columns. -/
def columnHeader : Text := "| Column | Type | Nullable | Key |".toList

theorem not_mem_ofInt {c : Char} (hdigit : c.isDigit = false) (hminus : c ≠ '-') (n : Int) :
    c ∉ Text.ofInt n := by
  have hnat (k : Nat) : c ∉ Text.ofNat k := by
    intro hc
    rw [Json.digits_ofNat k c hc] at hdigit
    exact Bool.false_ne_true hdigit.symm
  cases n with
  | ofNat k => exact hnat k
  | negSucc k => simpa [Text.ofInt, hminus] using hnat (k + 1)

theorem separators_code (t : Text) : separators (code t) = separators t := by
  rw [code, cat, List.flatten_cons, separators_plain_append (by decide), List.flatten_cons]
  exact separators_append_plain (by decide) t

theorem separators_location (file : Text) (line : Int) :
    separators (location file line) = separators file := by
  rw [location, separators_append_cons (by decide) (by decide),
    separators_of_not_mem (not_mem_ofInt (by decide) (by decide) line), Nat.add_zero]

theorem separators_yesNo (b : Bool) : separators (yesNo b) = 0 := by
  cases b <;> rfl

theorem separators_orHyphen (t : Text) : separators (orHyphen t) = separators t := by
  unfold orHyphen
  split
  · next h => rw [h]; rfl
  · rfl

theorem eq_of_nonempty? {o : Option Text} {t : Text} (h : nonempty? o = some t) : o = some t := by
  unfold nonempty? at h
  split at h
  · exact h
  · simp at h

theorem separators_keys (c : Column) :
    separators (keys c) = (c.foreign.toList.map separators).sum := by
  cases hforeign : nonempty? c.foreign with
  | none =>
    have hnone : (c.foreign.toList.map separators).sum = 0 := by
      unfold nonempty? at hforeign
      split at hforeign
      · simp at hforeign
      · next hempty =>
        match c.foreign, hempty with
        | none, _ => rfl
        | some [], _ => rfl
        | some (a :: t), hempty => exact absurd rfl (hempty a t)
    have hkeys : keys c = if c.primary then "PK".toList else [] := by
      rw [keys, hforeign]
      cases c.primary <;> rfl
    rw [hnone, hkeys]
    split <;> decide
  | some t =>
    have hkeys : keys c = (if c.primary then "PK, FK -> ".toList else "FK -> ".toList) ++ t := by
      rw [keys, hforeign]
      cases c.primary <;> simp [commas, Text.join_cons_cons]
    have hplain :
        ∀ a ∈ (if c.primary then "PK, FK -> ".toList else "FK -> ".toList), a ≠ '|' ∧ a ≠ '\\' := by
      cases c.primary <;> decide
    rw [hkeys, eq_of_nonempty? hforeign, separators_plain_append hplain]
    simp

/-- **The row of an endpoint has as many cells as the header, and one more for each bar in its
texts.** -/
theorem separators_endpointRow (e : Endpoint) :
    separators (endpointRow e) = separators endpointHeader + (e.texts.map separators).sum := by
  have hheader : separators endpointHeader = 6 := by decide
  simp only [endpointRow, separators_row, hheader, List.map_cons, List.map_nil, List.length_cons,
    List.length_nil, List.sum_cons, List.sum_nil, separators_code, separators_yesNo,
    separators_location, Endpoint.texts]
  omega

/-- **The row of a column has as many cells as the header, and one more for each bar in its
texts.** -/
theorem separators_columnRow (c : Column) :
    separators (columnRow c) = separators columnHeader + (c.texts.map separators).sum := by
  have hheader : separators columnHeader = 5 := by decide
  simp only [columnRow, separators_row, hheader, List.map_cons, List.map_nil, List.length_cons,
    List.length_nil, List.sum_cons, List.sum_nil, separators_orHyphen, separators_yesNo,
    separators_keys, Column.texts]
  omega

/-! ## Lines without line feeds -/

/-- None of the texts has a line feed. -/
def Feedless (ts : List Text) : Prop := ∀ t ∈ ts, '\n' ∉ t

instance (ts : List Text) : Decidable (Feedless ts) :=
  inferInstanceAs (Decidable (∀ t ∈ ts, '\n' ∉ t))

@[simp] theorem feedless_cons {t : Text} {ts : List Text} :
    Feedless (t :: ts) ↔ '\n' ∉ t ∧ Feedless ts := List.forall_mem_cons

@[simp] theorem feedless_append {ts ts' : List Text} :
    Feedless (ts ++ ts') ↔ Feedless ts ∧ Feedless ts' := List.forall_mem_append

@[simp] theorem feedless_flatMap {α : Type} {xs : List α} {f : α → List Text} :
    Feedless (xs.flatMap f) ↔ ∀ x ∈ xs, Feedless (f x) := by
  simp only [Feedless, List.mem_flatMap]
  exact ⟨fun h x hx t ht => h t ⟨x, hx, ht⟩, fun h t ⟨x, hx, ht⟩ => h x hx t ht⟩

@[simp] theorem feedless_map {α : Type} {xs : List α} {f : α → Text} :
    Feedless (xs.map f) ↔ ∀ x ∈ xs, '\n' ∉ f x := List.forall_mem_map

theorem feed_cat {parts : List Text} (h : Feedless parts) : '\n' ∉ cat parts := by
  intro hm
  obtain ⟨t, ht, hm⟩ := List.mem_flatten.1 hm
  exact h t ht hm

theorem feed_commas {ts : List Text} (h : Feedless ts) : '\n' ∉ commas ts := by
  induction ts with
  | nil => simp [commas, Text.join]
  | cons t ts ih =>
    obtain ⟨ht, hts⟩ := feedless_cons.1 h
    cases ts with
    | nil => simpa [commas] using ht
    | cons u us =>
      rw [commas] at ih ⊢
      rw [Text.join_cons_cons]
      simpa [ht] using ih hts

theorem feed_suffixed {mark : String} (hmark : '\n' ∉ mark.toList) {o : Option Text}
    (h : Feedless o.toList) : '\n' ∉ suffixed mark o := by
  unfold suffixed
  split
  · next t ht =>
    rw [eq_of_nonempty? ht] at h
    simpa [hmark] using h t (by simp)
  · simp

theorem feed_ofInt (n : Int) : '\n' ∉ Text.ofInt n := not_mem_ofInt (by decide) (by decide) n

theorem feed_signature {f : FunctionDecl} (h : Feedless f.texts) : '\n' ∉ signature f := by
  simp only [FunctionDecl.texts, feedless_cons, feedless_append] at h
  obtain ⟨⟨⟨hname, hparams⟩, hreturn⟩, hdescription⟩ := h
  refine feed_cat ?_
  simp only [feedless_cons]
  refine ⟨by decide, ?_, hname, by decide, feed_commas hparams, by decide,
    feed_suffixed (by decide) hreturn, by decide, feed_ofInt _, by decide,
    feed_suffixed (by decide) hdescription, by decide⟩
  split <;> decide

/-- A line that is none of a table. -/
def Prose (l : Text) : Prop := l.head? ≠ some '|' ∧ '\n' ∉ l

instance (l : Text) : Decidable (Prose l) :=
  inferInstanceAs (Decidable (l.head? ≠ some '|' ∧ '\n' ∉ l))

/-- A text after a mark at the start of the line. -/
theorem prose_append {mark t : Text} (hmark : mark ≠ [] ∧ Prose mark) (ht : '\n' ∉ t) :
    Prose (mark ++ t) := by
  obtain ⟨hne, hhead, hfeed⟩ := hmark
  refine ⟨?_, by simp [hfeed, ht]⟩
  rwa [List.head?_append_of_ne_nil _ hne]

theorem prose_cat {mark : Text} {parts : List Text} (hmark : mark ≠ [] ∧ Prose mark)
    (hparts : Feedless parts) : Prose (cat (mark :: parts)) :=
  prose_append hmark (feed_cat hparts)

theorem prose_classLines {c : ClassDecl} (h : Feedless c.texts) : ∀ l ∈ classLines c, Prose l := by
  simp only [ClassDecl.texts, feedless_cons, feedless_append, feedless_flatMap] at h
  obtain ⟨⟨⟨hname, hmethods⟩, hproperties⟩, hdescription⟩ := h
  simp only [classLines, List.forall_mem_append, List.forall_mem_singleton]
  refine ⟨⟨⟨⟨?_, ?_⟩, ?_⟩, ?_⟩, by decide⟩
  · refine prose_cat (by decide) ?_
    simp only [feedless_cons]
    exact ⟨hname, by decide, feed_ofInt _, by decide, by decide⟩
  · cases hc : nonempty? c.description with
    | none => simp
    | some t =>
      rw [eq_of_nonempty? hc] at hdescription
      simpa using @prose_append "> ".toList t (by decide) (hdescription t (by simp))
  · split
    · simp
    · exact List.forall_mem_singleton.2 (prose_append (by decide) (feed_commas hproperties))
  · split
    · simp
    · refine List.forall_mem_cons.2 ⟨by decide, ?_⟩
      rw [List.forall_mem_map]
      exact fun m hm => prose_append (by decide) (feed_signature (hmethods m hm))

theorem prose_listSection {heading : String} (hheading : Prose heading.toList) {entries : List Text}
    (h : ∀ l ∈ entries, Prose l) : ∀ l ∈ listSection heading entries, Prose l := by
  unfold listSection
  split
  · simp
  · simp only [List.cons_append, List.forall_mem_cons, List.forall_mem_append]
    exact ⟨hheading, h, by decide⟩

theorem prose_interfaceEntry {i : InterfaceDecl} (h : Feedless i.texts) :
    Prose (interfaceEntry i) := by
  simp only [InterfaceDecl.texts, feedless_cons, feedless_append] at h
  obtain ⟨⟨hname, hproperties⟩, hdescription⟩ := h
  refine prose_cat (by decide) ?_
  simp only [feedless_cons]
  refine ⟨hname, by decide, ?_, feed_suffixed (by decide) hdescription, by decide⟩
  split
  · simp
  · refine feed_cat ?_
    simp only [feedless_cons]
    exact ⟨by decide, feed_commas hproperties, by decide, by decide⟩

theorem prose_importEntry {i : ImportDecl} (h : Feedless i.texts) : Prose (importEntry i) := by
  obtain ⟨hsource, himports⟩ := feedless_cons.1 h
  refine prose_cat (by decide) ?_
  simp only [feedless_cons]
  refine ⟨hsource, by decide, ?_, by decide⟩
  split
  · simp
  · simpa using feed_commas himports

theorem prose_fileLines {o : Outline} (h : Feedless o.texts) : ∀ l ∈ fileLines o, Prose l := by
  simp only [Outline.texts, feedless_cons, feedless_append, feedless_flatMap] at h
  obtain ⟨⟨⟨⟨-, hrelative, hlanguage, hfunctions⟩, hclasses⟩, hinterfaces⟩, himports⟩ := h
  simp only [fileLines, List.forall_mem_append]
  refine ⟨⟨⟨⟨?_, ?_⟩, prose_listSection (by decide) ?_⟩, prose_listSection (by decide) ?_⟩,
    prose_listSection (by decide) ?_⟩
  · refine List.forall_mem_cons.2 ⟨prose_cat (by decide) ?_, by decide⟩
    simp only [feedless_cons]
    exact ⟨hrelative, by decide, hlanguage, by decide, by decide⟩
  · intro l hl
    obtain ⟨c, hc, hl⟩ := List.mem_flatMap.1 hl
    exact prose_classLines (hclasses c hc) l hl
  · rw [List.forall_mem_map]
    exact fun f hf => prose_append (by decide) (feed_signature (hfunctions f hf))
  · rw [List.forall_mem_map]
    exact fun i hi => prose_interfaceEntry (hinterfaces i hi)
  · rw [List.forall_mem_map]
    exact fun i hi => prose_importEntry (himports i hi)

theorem feed_directory {path : Text} (h : '\n' ∉ path) : '\n' ∉ directory path := by
  unfold directory
  split
  · next name c head hcut =>
    have hpath := Text.eq_of_cut? hcut
    intro hm
    refine h (List.mem_reverse.1 ?_)
    rw [hpath]
    simp only [List.mem_reverse] at hm
    simp [hm]
  · decide

/-- The lines of the files, directory by directory. -/
def directoryLines (files : List Outline) : List Text :=
  (groups files).flatMap fun (dir, os) =>
    cat ["### ".toList, dir, "/".toList] :: [] :: os.flatMap fileLines

theorem prose_directoryLines {files : List Outline} (h : ∀ o ∈ files, Feedless o.texts) :
    ∀ l ∈ directoryLines files, Prose l := by
  intro l hl
  obtain ⟨⟨dir, os⟩, hg, hl⟩ := List.mem_flatMap.1 hl
  have hfiles : ∀ o ∈ os, o ∈ files := by
    intro o ho
    rw [← flatMap_groups files]
    exact List.mem_flatMap.2 ⟨_, hg, ho⟩
  obtain ⟨hne, hdir⟩ := headed_groups files _ hg
  rcases List.mem_cons.1 hl with rfl | hl
  · obtain ⟨o, ho⟩ := List.exists_mem_of_ne_nil _ hne
    have hrelative : '\n' ∉ o.relativePath := h o (hfiles o ho) _ (by simp [Outline.texts])
    have hdirectory : directory o.relativePath = dir := hdir o ho
    refine prose_cat (by decide) ?_
    simp only [feedless_cons]
    exact ⟨hdirectory ▸ feed_directory hrelative, by decide, by decide⟩
  rcases List.mem_cons.1 hl with rfl | hl
  · decide
  · obtain ⟨o, ho, hl⟩ := List.mem_flatMap.1 hl
    exact prose_fileLines (h o (hfiles o ho)) l hl

/-! ### The lines of a table -/

theorem feed_row {cells : List Text} (h : Feedless cells) : '\n' ∉ row cells := by
  refine feed_cat (feedless_cons.2 ⟨by decide, feedless_cons.2 ⟨?_, by simp [Feedless]⟩⟩)
  intro hm
  obtain ⟨c, hc, hm⟩ := List.mem_flatMap.1 hm
  refine feed_cat ?_ hm
  simp only [feedless_cons]
  exact ⟨by decide, h c hc, by decide, by decide⟩

theorem feed_yesNo (b : Bool) : '\n' ∉ yesNo b := by
  cases b <;> decide

theorem feed_orHyphen {t : Text} (h : '\n' ∉ t) : '\n' ∉ orHyphen t := by
  unfold orHyphen
  split
  · decide
  · exact h

theorem feed_location {file : Text} (h : '\n' ∉ file) (line : Int) : '\n' ∉ location file line := by
  simp [location, h, feed_ofInt line]

theorem feed_code {t : Text} (h : '\n' ∉ t) : '\n' ∉ code t := by
  refine feed_cat ?_
  simp only [feedless_cons]
  exact ⟨by decide, h, by decide, by decide⟩

theorem feed_endpointRow {e : Endpoint} (h : Feedless e.texts) : '\n' ∉ endpointRow e := by
  simp only [Endpoint.texts, feedless_cons] at h
  obtain ⟨hmethod, hpath, hhandler, hfile, -⟩ := h
  refine feed_row ?_
  simp only [feedless_cons]
  exact ⟨hmethod, feed_code hpath, hhandler, feed_yesNo _, feed_location hfile _, by decide⟩

theorem feed_keys {c : Column} (h : Feedless c.foreign.toList) : '\n' ∉ keys c := by
  refine feed_commas (feedless_append.2 ⟨by split <;> decide, ?_⟩)
  cases hc : nonempty? c.foreign with
  | none => simp [Feedless]
  | some t =>
    rw [eq_of_nonempty? hc] at h
    simpa [Feedless] using h t (by simp)

theorem feed_columnRow {c : Column} (h : Feedless c.texts) : '\n' ∉ columnRow c := by
  simp only [Column.texts, feedless_cons] at h
  obtain ⟨hname, htype, hforeign⟩ := h
  refine feed_row ?_
  simp only [feedless_cons]
  exact ⟨hname, feed_orHyphen htype, feed_yesNo _, feed_orHyphen (feed_keys hforeign), by decide⟩

/-! ## Tables -/

/-- The tables of a document: the runs of lines that start with a bar. -/
def tableBlocks (lines : List Text) : List (List Text) :=
  (lines.splitOnP fun l => l.head? ≠ some '|').filter (· ≠ [])

/-- Lines that start with a bar make a table when another line follows. -/
theorem tableBlocks_block {block : List Text} (h : ∀ l ∈ block, l.head? = some '|') {l : Text}
    (hl : l.head? ≠ some '|') (lines : List Text) :
    tableBlocks (block ++ l :: lines) = [block].filter (· ≠ []) ++ tableBlocks lines := by
  have hsplit : (block ++ l :: lines).splitOnP (fun l => l.head? ≠ some '|') =
      block :: lines.splitOnP fun l => l.head? ≠ some '|' :=
    List.splitOnP_append_cons_of_forall_mem (fun l hl => by simp [h l hl]) l
      (by simpa using hl) lines
  rw [tableBlocks, hsplit, ← List.singleton_append, List.filter_append, tableBlocks]

/-- The lines have no line feeds, and their tables are the given ones, whatever lines follow. -/
structure Layout (lines : List Text) (tables : List (List Text)) : Prop where
  feedless : Feedless lines
  blocks (more : List Text) : tableBlocks (lines ++ more) = tables ++ tableBlocks more

namespace Layout

theorem nil : Layout [] [] := ⟨by simp [Feedless], fun _ => rfl⟩

theorem append {lines lines' : List Text} {tables tables' : List (List Text)}
    (h : Layout lines tables) (h' : Layout lines' tables') :
    Layout (lines ++ lines') (tables ++ tables') := by
  refine ⟨feedless_append.2 ⟨h.feedless, h'.feedless⟩, fun more => ?_⟩
  rw [List.append_assoc, h.blocks, h'.blocks, List.append_assoc]

theorem flatMap {α : Type} {xs : List α} {lines : α → List Text} {tables : α → List (List Text)}
    (h : ∀ x ∈ xs, Layout (lines x) (tables x)) :
    Layout (xs.flatMap lines) (xs.flatMap tables) := by
  induction xs with
  | nil => exact nil
  | cons x xs ih =>
    obtain ⟨hx, hxs⟩ := List.forall_mem_cons.1 h
    rw [List.flatMap_cons, List.flatMap_cons]
    exact hx.append (ih hxs)

theorem cons {l : Text} {lines : List Text} {tables : List (List Text)} (hl : Prose l)
    (h : Layout lines tables) : Layout (l :: lines) tables :=
  ⟨feedless_cons.2 ⟨hl.2, h.feedless⟩,
    fun more => (@tableBlocks_block [] (by simp) l hl.1 (lines ++ more)).trans (h.blocks more)⟩

/-- Lines of prose hold no table. -/
theorem prose {lines : List Text} (h : ∀ l ∈ lines, Prose l) : Layout lines [] := by
  induction lines with
  | nil => exact nil
  | cons l lines ih =>
    obtain ⟨hl, hlines⟩ := List.forall_mem_cons.1 h
    exact cons hl (ih hlines)

/-- A table ends at the empty line below it. -/
theorem block {table : List Text} (hne : table ≠ []) (hbars : ∀ l ∈ table, l.head? = some '|')
    (h : Feedless table) : Layout (table ++ [[]]) [table] := by
  refine ⟨feedless_append.2 ⟨h, by decide⟩, fun more => ?_⟩
  have hfilter : [table].filter (· ≠ []) = [table] := by simp [hne]
  rw [List.append_assoc, List.singleton_append, tableBlocks_block hbars (by simp), hfilter]

end Layout

/-! ### The tables of the report -/

/-- The table of the totals. -/
def totalsTable (p : ProjectIndex) : List Text :=
  ["| Metric | Count |".toList, "|--------|-------|".toList, totalRow "Files" p.fileCount,
    totalRow "Functions" p.functionCount, totalRow "Classes" p.classCount,
    totalRow "API Endpoints" p.endpoints.length, totalRow "Database Tables" p.tables.length]

/-- The table of some endpoints. -/
def endpointTable (endpoints : List Endpoint) : List Text :=
  endpointHeader :: "|--------|------|---------|------|----------|".toList ::
    endpoints.map endpointRow

/-- The table of the columns of a table. -/
def columnTable (t : Table) : List Text :=
  columnHeader :: "|--------|------|----------|-----|".toList :: t.columns.map columnRow

/-- The tables of a document: the totals, the endpoints, and the columns of each table of the
schema. -/
def tables (p : ProjectIndex) : List (List Text) :=
  [totalsTable p] ++ (if p.endpoints = [] then [] else [endpointTable p.endpoints])
    ++ p.tables.flatMap fun t => if t.columns = [] then [] else [columnTable t]

theorem layout_totalsTable (p : ProjectIndex) : Layout (totalsTable p ++ [[]]) [totalsTable p] := by
  have hbars (name : String) (n : Int) : (totalRow name n).head? = some '|' := rfl
  have hfeed {name : String} (hname : '\n' ∉ name.toList) (n : Int) : '\n' ∉ totalRow name n := by
    refine feed_row ?_
    simp only [feedless_cons]
    exact ⟨hname, feed_ofInt n, by decide⟩
  refine Layout.block (List.cons_ne_nil _ _) ?_ ?_
  · simp only [totalsTable, List.forall_mem_cons]
    exact ⟨by decide, by decide, hbars _ _, hbars _ _, hbars _ _, hbars _ _, hbars _ _, by simp⟩
  · simp only [totalsTable, feedless_cons]
    exact ⟨by decide, by decide, hfeed (by decide) _, hfeed (by decide) _, hfeed (by decide) _,
      hfeed (by decide) _, hfeed (by decide) _, by decide⟩

theorem layout_endpointTable {endpoints : List Endpoint} (h : ∀ e ∈ endpoints, Feedless e.texts) :
    Layout (endpointTable endpoints ++ [[]]) [endpointTable endpoints] := by
  refine Layout.block (List.cons_ne_nil _ _) ?_ ?_
  · simp only [endpointTable, List.forall_mem_cons, List.forall_mem_map]
    exact ⟨by decide, by decide, fun e _ => rfl⟩
  · simp only [endpointTable, feedless_cons, feedless_map]
    exact ⟨by decide, by decide, fun e he => feed_endpointRow (h e he)⟩

theorem layout_columnTable {t : Table} (h : ∀ c ∈ t.columns, Feedless c.texts) :
    Layout (columnTable t ++ [[]]) [columnTable t] := by
  refine Layout.block (List.cons_ne_nil _ _) ?_ ?_
  · simp only [columnTable, List.forall_mem_cons, List.forall_mem_map]
    exact ⟨by decide, by decide, fun c _ => rfl⟩
  · simp only [columnTable, feedless_cons, feedless_map]
    exact ⟨by decide, by decide, fun c hc => feed_columnRow (h c hc)⟩

theorem layout_tableLines {t : Table} (h : Feedless t.texts) :
    Layout (tableLines t) (if t.columns = [] then [] else [columnTable t]) := by
  simp only [Table.texts, feedless_cons, feedless_flatMap] at h
  obtain ⟨hname, hfile, hcolumns⟩ := h
  have hheading :
      Layout ["### ".toList ++ t.name, [],
        "Defined in ".toList ++ code (location t.file t.line), []] [] := by
    refine Layout.prose ?_
    simp only [List.forall_mem_cons]
    exact ⟨prose_append (by decide) hname, by decide,
      prose_append (by decide) (feed_code (feed_location hfile _)), by decide, by simp⟩
  have htable : Layout (if t.columns = [] then [] else columnTable t ++ [[]])
      (if t.columns = [] then [] else [columnTable t]) := by
    split
    · exact Layout.nil
    · exact layout_columnTable hcolumns
  exact hheading.append htable

/-! ### The sections of the report -/

/-- The lines above the totals. -/
def openingLines (p : ProjectIndex) : List Text :=
  ["# AI Context: ".toList ++ p.projectName, [], "Generated: ".toList ++ p.generated, []]
  ++ (if p.techStack = [] then []
      else "## Tech Stack".toList :: [] :: p.techStack.map ("- ".toList ++ ·) ++ [[]])

/-- The lines of the endpoints. -/
def endpointLines (p : ProjectIndex) : List Text :=
  if p.endpoints = [] then []
  else "## API Endpoints".toList :: [] :: (endpointTable p.endpoints ++ [[]])

/-- The lines of the schema. -/
def schemaLines (p : ProjectIndex) : List Text :=
  if p.tables = [] then [] else "## Database Schema".toList :: [] :: p.tables.flatMap tableLines

/-- The lines below the tables. -/
def closingLines (p : ProjectIndex) : List Text :=
  (if p.files = [] then [] else "## Files".toList :: [] :: directoryLines p.files)
  ++ ["---".toList, [],
      ("Regenerate this file with `omen generate`. Feed it to an assistant as project "
        ++ "context before asking about the codebase.").toList, []]

theorem documentLines_eq (p : ProjectIndex) :
    documentLines p = openingLines p ++ ("## Statistics".toList :: [] :: (totalsTable p ++ [[]]))
      ++ endpointLines p ++ schemaLines p ++ closingLines p := by
  rw [closingLines, ← List.append_assoc]
  rfl

theorem prose_openingLines {p : ProjectIndex} (hname : '\n' ∉ p.projectName)
    (hgenerated : '\n' ∉ p.generated) (hstack : Feedless p.techStack) :
    ∀ l ∈ openingLines p, Prose l := by
  refine List.forall_mem_append.2 ⟨?_, ?_⟩
  · simp only [List.forall_mem_cons]
    exact ⟨prose_append (by decide) hname, by decide, prose_append (by decide) hgenerated,
      by decide, by simp⟩
  · split
    · simp
    · simp only [List.cons_append, List.forall_mem_cons, List.forall_mem_append,
        List.forall_mem_map]
      exact ⟨by decide, by decide, fun t ht => prose_append (by decide) (hstack t ht), by decide⟩

theorem prose_closingLines {p : ProjectIndex} (h : ∀ o ∈ p.files, Feedless o.texts) :
    ∀ l ∈ closingLines p, Prose l := by
  refine List.forall_mem_append.2 ⟨?_, by decide +kernel⟩
  split
  · simp
  · simp only [List.forall_mem_cons]
    exact ⟨by decide, by decide, prose_directoryLines h⟩

theorem layout_endpointLines {p : ProjectIndex} (h : ∀ e ∈ p.endpoints, Feedless e.texts) :
    Layout (endpointLines p) (if p.endpoints = [] then [] else [endpointTable p.endpoints]) := by
  unfold endpointLines
  split
  · exact Layout.nil
  · exact Layout.cons (by decide) (Layout.cons (by decide) (layout_endpointTable h))

theorem layout_schemaLines {p : ProjectIndex} (h : ∀ t ∈ p.tables, Feedless t.texts) :
    Layout (schemaLines p)
      (p.tables.flatMap fun t => if t.columns = [] then [] else [columnTable t]) := by
  unfold schemaLines
  split
  · next hnone =>
    rw [hnone]
    exact Layout.nil
  · exact Layout.cons (by decide)
      (Layout.cons (by decide) (Layout.flatMap fun t ht => layout_tableLines (h t ht)))

/-- **The document has the tables of the index and no other lines that start with a bar.** -/
theorem layout_documentLines {p : ProjectIndex} (h : Feedless p.texts) :
    Layout (documentLines p) (tables p) := by
  simp only [ProjectIndex.texts, feedless_cons, feedless_append, feedless_flatMap] at h
  obtain ⟨⟨⟨⟨hname, hgenerated, hfiles⟩, hstack⟩, hendpoints⟩, htables⟩ := h
  have hopening := Layout.prose (prose_openingLines hname hgenerated hstack)
  have htotals : Layout ("## Statistics".toList :: [] :: (totalsTable p ++ [[]])) [totalsTable p] :=
    Layout.cons (by decide) (Layout.cons (by decide) (layout_totalsTable p))
  have hclosing := Layout.prose (prose_closingLines hfiles)
  have hall := (((hopening.append htotals).append (layout_endpointLines hendpoints)).append
    (layout_schemaLines htables)).append hclosing
  rw [documentLines_eq, tables]
  rwa [List.nil_append, List.append_nil] at hall

theorem splitChar_renderMarkdown {p : ProjectIndex} (h : Feedless p.texts) :
    Text.splitChar '\n' p.renderMarkdown = documentLines p := by
  refine Text.splitChar_join ?_ (layout_documentLines h).feedless
  rw [documentLines_eq, closingLines]
  exact List.append_ne_nil_of_right_ne_nil _
    (List.append_ne_nil_of_right_ne_nil _ (List.cons_ne_nil _ _))

/-- **The tables of the report.** If no text of the index has a line feed, the runs of lines of the
report that start with a bar are its tables; and each row of an endpoint or a column has the bars of
its header and those in the texts that it shows. -/
theorem renderMarkdown_tables {p : ProjectIndex} (h : Feedless p.texts) :
    tableBlocks (Text.splitChar '\n' p.renderMarkdown) = tables p ∧
      (∀ e ∈ p.endpoints,
        separators (endpointRow e) = separators endpointHeader + (e.texts.map separators).sum) ∧
      ∀ t ∈ p.tables, ∀ c ∈ t.columns,
        separators (columnRow c) = separators columnHeader + (c.texts.map separators).sum := by
  refine ⟨?_, fun e _ => separators_endpointRow e, fun t _ c _ => separators_columnRow c⟩
  have hblocks := (layout_documentLines h).blocks []
  rw [splitChar_renderMarkdown h, ← List.append_nil (documentLines p), hblocks]
  exact List.append_nil _

/-- An index with an endpoint, and with a column of a union type. -/
def unionIndex : ProjectIndex where
  projectName := "shop".toList
  generated := "2024-01-01T00:00:00".toList
  endpoints :=
    [⟨"GET".toList, "/users/:id".toList, "getUser".toList, "src/routes.ts".toList, 4, true⟩]
  tables := [⟨"User".toList, "src/user.ts".toList, 3,
    [⟨"id".toList, "number".toList, false, true, none⟩,
      ⟨"email".toList, "string | null".toList, true, false, none⟩]⟩]

theorem renderMarkdown_tables_unionIndex :
    Feedless unionIndex.texts ∧
      tableBlocks (Text.splitChar '\n' unionIndex.renderMarkdown) = tables unionIndex ∧
      (∀ e ∈ unionIndex.endpoints,
        separators (endpointRow e) = separators endpointHeader + (e.texts.map separators).sum) ∧
      ∀ t ∈ unionIndex.tables, ∀ c ∈ t.columns,
        separators (columnRow c) = separators columnHeader + (c.texts.map separators).sum :=
  have hfeed : Feedless unionIndex.texts := by decide
  ⟨hfeed, renderMarkdown_tables hfeed⟩

/-- The union type makes a cell too many in the table of the columns. -/
theorem renderMarkdown_not_rectangular :
    Feedless unionIndex.texts ∧
      ∃ table ∈ tableBlocks (Text.splitChar '\n' unionIndex.renderMarkdown),
        table.head? = some columnHeader ∧ ∃ l ∈ table, separators l ≠ separators columnHeader := by
  decide +kernel

end Markdown

end CodeIndex
