import CodeIndex.Proofs.Json.Roundtrip
import CodeIndex.Report.Json
import Mathlib.Logic.Function.Basic

/-!
# The JSON report is lossless

`renderJson_lossless`: if its integers have few enough digits, an index has a JSON text, which is
ASCII and reads back as the document with the fields of the index; the index is recovered from that
document, and different indexes have different texts. Otherwise it has none (`renderJson_eq_error`).

The recovery is by readers that stand beside the writers, one for each record
(`FunctionDecl.ofJson?` to `ProjectIndex.ofJson?`): a reader looks its fields up by name and fails
when one is missing or of the wrong kind. Each undoes its writer; the lists go through
`Json.list?_map`.
-/

namespace CodeIndex

namespace Json

/-! ## Reading the fields of a document -/

/-- A text. -/
def text? : Json → Option Text
  | str s => some s
  | _ => none

/-- A text or null. -/
def textOrNull? : Json → Option (Option Text)
  | null => some none
  | str s => some (some s)
  | _ => none

/-- An integer. -/
def int? : Json → Option Int
  | int n => some n
  | _ => none

/-- A truth value. -/
def bool? : Json → Option Bool
  | bool b => some b
  | _ => none

/-- A list whose items are all read by `read`. -/
def list? {α : Type} (read : Json → Option α) : Json → Option (List α)
  | arr js => js.mapM read
  | _ => none

/-- The field with a name, read by `read`. -/
def field? {α : Type} (key : String) (read : Json → Option α) (j : Json) : Option α :=
  (j.get? key.toList).bind read

@[simp] theorem text?_str (s : Text) : text? (.str s) = some s := rfl
@[simp] theorem int?_int (n : Int) : int? (.int n) = some n := rfl
@[simp] theorem bool?_bool (b : Bool) : bool? (.bool b) = some b := rfl

@[simp] theorem textOrNull?_ofText? (t : Option Text) : textOrNull? (ofText? t) = some t := by
  cases t <;> rfl

@[simp] theorem field?_ofFields {α : Type} (key : String) (read : Json → Option α)
    (fields : List (String × Json)) :
    (ofFields fields).field? key read =
      (fields.reverse.find? (·.1 = key)).bind fun f => read f.2 := by
  have same : (fun f : Text × Json => decide (f.1 = key.toList)) ∘
      (fun f : String × Json => (f.1.toList, f.2)) = fun f => decide (f.1 = key) := by
    funext f
    simp [String.toList_inj]
  simp only [field?, get?, ofFields, ← List.map_reverse, List.find?_map, same, Option.map_map,
    Option.bind_map]
  rfl

/-- A list written item by item is read item by item. -/
theorem list?_map {α : Type} {read : Json → Option α} {write : α → Json}
    (h : ∀ a, read (write a) = some a) (as : List α) :
    list? read (.arr (as.map write)) = some as := by
  induction as with
  | nil => rfl
  | cons a as ih => simp_all [list?]

@[simp] theorem list?_ofTexts (ts : List Text) : list? text? (ofTexts ts) = some ts :=
  list?_map text?_str ts

/-! ## Documents without floating-point numbers -/

attribute [simp] Exact.bool Exact.int Exact.str

@[simp] theorem exact_ofText? (t : Option Text) : Exact (ofText? t) := by
  cases t <;> constructor

@[simp] theorem exact_ofFields (fields : List (String × Json)) :
    Exact (ofFields fields) ↔ ∀ f ∈ fields, Exact f.2 := by
  refine ⟨fun h f hf => ?_, fun h => .obj ?_⟩
  · cases h with
    | obj h => exact h (f.1.toList, f.2) (List.mem_map_of_mem hf)
  · rintro g hg
    obtain ⟨f, hf, rfl⟩ := List.mem_map.1 hg
    exact h f hf

/-- A list written item by item has no floating-point number if no item has one. -/
@[simp] theorem exact_map {α : Type} (write : α → Json) (as : List α) :
    Exact (.arr (as.map write)) ↔ ∀ a ∈ as, Exact (write a) := by
  refine ⟨fun h a ha => ?_, fun h => .arr ?_⟩
  · cases h with
    | arr h => exact h _ (List.mem_map_of_mem ha)
  · rintro j hj
    obtain ⟨a, ha, rfl⟩ := List.mem_map.1 hj
    exact h a ha

@[simp] theorem exact_ofTexts (ts : List Text) : Exact (ofTexts ts) := by
  simp [ofTexts]

/-! ## Documents whose integers can be written -/

theorem areWritable_iff (js : List Json) :
    areWritable js = true ↔ ∀ j ∈ js, j.isWritable = true := by
  induction js with
  | nil => simp [areWritable]
  | cons j js ih => simp [areWritable, ih]

theorem hasWritable_iff (fields : List (Text × Json)) :
    hasWritable fields = true ↔ ∀ f ∈ fields, f.2.isWritable = true := by
  induction fields with
  | nil => simp [hasWritable]
  | cons f fields ih => simp [hasWritable, ih]

@[simp] theorem isWritable_bool (b : Bool) : (bool b).isWritable = true := rfl
@[simp] theorem isWritable_int (n : Int) : (int n).isWritable = Text.isShort n := rfl
@[simp] theorem isWritable_str (s : Text) : (str s).isWritable = true := rfl

@[simp] theorem isWritable_ofText? (t : Option Text) : (ofText? t).isWritable = true := by
  cases t <;> rfl

@[simp] theorem isWritable_ofFields (fields : List (String × Json)) :
    (ofFields fields).isWritable = true ↔ ∀ f ∈ fields, f.2.isWritable = true := by
  rw [ofFields, isWritable, hasWritable_iff, List.forall_mem_map]

@[simp] theorem isWritable_map {α : Type} (write : α → Json) (as : List α) :
    (arr (as.map write)).isWritable = true ↔ ∀ a ∈ as, (write a).isWritable = true := by
  rw [isWritable, areWritable_iff, List.forall_mem_map]

@[simp] theorem isWritable_ofTexts (ts : List Text) : (ofTexts ts).isWritable = true := by
  simp [ofTexts]

end Json

/-- An integer is short if it has at most as many decimal digits as the bound says. -/
theorem Text.isShort_iff {n : Int} : Text.isShort n = true ↔ n.natAbs < 10 ^ Text.maxDigits := by
  rw [Text.isShort, decide_eq_true_iff, Text.ofNat]
  exact Nat.length_toDigits_le_iff (by decide) (by decide)

open Json

/-! ## The records -/

/-- A function from its document. -/
def FunctionDecl.ofJson? (j : Json) : Option FunctionDecl := do
  return {
    name := ← j.field? "name" text?
    params := ← j.field? "params" (list? text?)
    line := ← j.field? "line" int?
    returnType := ← j.field? "return_type" textOrNull?
    isAsync := ← j.field? "is_async" bool?
    isExported := ← j.field? "is_exported" bool?
    description := ← j.field? "description" textOrNull? }

theorem FunctionDecl.ofJson?_toJson (f : FunctionDecl) :
    FunctionDecl.ofJson? f.toJson = some f := by
  simp [FunctionDecl.ofJson?, FunctionDecl.toJson]

@[simp] theorem FunctionDecl.exact_toJson (f : FunctionDecl) : f.toJson.Exact := by
  simp [FunctionDecl.toJson]

@[simp] theorem FunctionDecl.isWritable_toJson (f : FunctionDecl) :
    f.toJson.isWritable = true ↔ Text.isShort f.line = true := by
  simp [FunctionDecl.toJson]

/-- A class from its document. -/
def ClassDecl.ofJson? (j : Json) : Option ClassDecl := do
  return {
    name := ← j.field? "name" text?
    line := ← j.field? "line" int?
    methods := ← j.field? "methods" (list? FunctionDecl.ofJson?)
    properties := ← j.field? "properties" (list? text?)
    isExported := ← j.field? "is_exported" bool?
    description := ← j.field? "description" textOrNull? }

theorem ClassDecl.ofJson?_toJson (c : ClassDecl) : ClassDecl.ofJson? c.toJson = some c := by
  simp [ClassDecl.ofJson?, ClassDecl.toJson, list?_map FunctionDecl.ofJson?_toJson]

@[simp] theorem ClassDecl.exact_toJson (c : ClassDecl) : c.toJson.Exact := by
  simp [ClassDecl.toJson]

/-- The integers of a class. -/
def ClassDecl.integers (c : ClassDecl) : List Int := c.line :: c.methods.map (·.line)

@[simp] theorem ClassDecl.isWritable_toJson (c : ClassDecl) :
    c.toJson.isWritable = true ↔ ∀ n ∈ c.integers, Text.isShort n = true := by
  simp [ClassDecl.toJson, ClassDecl.integers]

/-- An interface from its document. -/
def InterfaceDecl.ofJson? (j : Json) : Option InterfaceDecl := do
  return {
    name := ← j.field? "name" text?
    line := ← j.field? "line" int?
    properties := ← j.field? "properties" (list? text?)
    isExported := ← j.field? "is_exported" bool?
    description := ← j.field? "description" textOrNull? }

theorem InterfaceDecl.ofJson?_toJson (i : InterfaceDecl) :
    InterfaceDecl.ofJson? i.toJson = some i := by
  simp [InterfaceDecl.ofJson?, InterfaceDecl.toJson]

@[simp] theorem InterfaceDecl.exact_toJson (i : InterfaceDecl) : i.toJson.Exact := by
  simp [InterfaceDecl.toJson]

@[simp] theorem InterfaceDecl.isWritable_toJson (i : InterfaceDecl) :
    i.toJson.isWritable = true ↔ Text.isShort i.line = true := by
  simp [InterfaceDecl.toJson]

/-- An import from its document. -/
def ImportDecl.ofJson? (j : Json) : Option ImportDecl := do
  return {
    source := ← j.field? "source" text?
    imports := ← j.field? "imports" (list? text?)
    line := ← j.field? "line" int? }

theorem ImportDecl.ofJson?_toJson (i : ImportDecl) : ImportDecl.ofJson? i.toJson = some i := by
  simp [ImportDecl.ofJson?, ImportDecl.toJson]

@[simp] theorem ImportDecl.exact_toJson (i : ImportDecl) : i.toJson.Exact := by
  simp [ImportDecl.toJson]

@[simp] theorem ImportDecl.isWritable_toJson (i : ImportDecl) :
    i.toJson.isWritable = true ↔ Text.isShort i.line = true := by
  simp [ImportDecl.toJson]

/-- An outline from its document. -/
def Outline.ofJson? (j : Json) : Option Outline := do
  return {
    functions := ← j.field? "functions" (list? FunctionDecl.ofJson?)
    classes := ← j.field? "classes" (list? ClassDecl.ofJson?)
    interfaces := ← j.field? "interfaces" (list? InterfaceDecl.ofJson?)
    imports := ← j.field? "imports" (list? ImportDecl.ofJson?)
    path := ← j.field? "path" text?
    relativePath := ← j.field? "relative_path" text?
    language := ← j.field? "language" text? }

theorem Outline.ofJson?_toJson (o : Outline) : Outline.ofJson? o.toJson = some o := by
  simp [Outline.ofJson?, Outline.toJson, Declarations.toFields,
    list?_map FunctionDecl.ofJson?_toJson, list?_map ClassDecl.ofJson?_toJson,
    list?_map InterfaceDecl.ofJson?_toJson, list?_map ImportDecl.ofJson?_toJson]

@[simp] theorem Outline.exact_toJson (o : Outline) : o.toJson.Exact := by
  simp [Outline.toJson, Declarations.toFields]

/-- The integers of an outline. -/
def Outline.integers (o : Outline) : List Int :=
  o.functions.map (·.line) ++ o.classes.flatMap ClassDecl.integers ++ o.interfaces.map (·.line) ++
    o.imports.map (·.line)

@[simp] theorem Outline.isWritable_toJson (o : Outline) :
    o.toJson.isWritable = true ↔ ∀ n ∈ o.integers, Text.isShort n = true := by
  simp [Outline.toJson, Declarations.toFields, Outline.integers, or_imp, forall_and]
  tauto

/-- An endpoint from its document. -/
def Endpoint.ofJson? (j : Json) : Option Endpoint := do
  return {
    method := ← j.field? "method" text?
    path := ← j.field? "path" text?
    handler := ← j.field? "handler" text?
    file := ← j.field? "file" text?
    line := ← j.field? "line" int?
    auth := ← j.field? "auth" bool? }

theorem Endpoint.ofJson?_toJson (e : Endpoint) : Endpoint.ofJson? e.toJson = some e := by
  simp [Endpoint.ofJson?, Endpoint.toJson]

@[simp] theorem Endpoint.exact_toJson (e : Endpoint) : e.toJson.Exact := by
  simp [Endpoint.toJson]

@[simp] theorem Endpoint.isWritable_toJson (e : Endpoint) :
    e.toJson.isWritable = true ↔ Text.isShort e.line = true := by
  simp [Endpoint.toJson]

/-- A column from its document. -/
def Column.ofJson? (j : Json) : Option Column := do
  return {
    name := ← j.field? "name" text?
    type := ← j.field? "type" text?
    nullable := ← j.field? "nullable" bool?
    primary := ← j.field? "primary" bool?
    foreign := ← j.field? "foreign" textOrNull? }

theorem Column.ofJson?_toJson (c : Column) : Column.ofJson? c.toJson = some c := by
  simp [Column.ofJson?, Column.toJson]

@[simp] theorem Column.exact_toJson (c : Column) : c.toJson.Exact := by
  simp [Column.toJson]

@[simp] theorem Column.isWritable_toJson (c : Column) : c.toJson.isWritable = true := by
  simp [Column.toJson]

/-- A table from its document. -/
def Table.ofJson? (j : Json) : Option Table := do
  return {
    name := ← j.field? "name" text?
    file := ← j.field? "file" text?
    line := ← j.field? "line" int?
    columns := ← j.field? "columns" (list? Column.ofJson?) }

theorem Table.ofJson?_toJson (t : Table) : Table.ofJson? t.toJson = some t := by
  simp [Table.ofJson?, Table.toJson, list?_map Column.ofJson?_toJson]

@[simp] theorem Table.exact_toJson (t : Table) : t.toJson.Exact := by
  simp [Table.toJson]

@[simp] theorem Table.isWritable_toJson (t : Table) :
    t.toJson.isWritable = true ↔ Text.isShort t.line = true := by
  simp [Table.toJson]

namespace ProjectIndex

/-- The index of a project from its document. -/
def ofJson? (j : Json) : Option ProjectIndex := do
  return {
    projectName := ← j.field? "project_name" text?
    generated := ← j.field? "generated" text?
    fileCount := ← j.field? "file_count" int?
    functionCount := ← j.field? "function_count" int?
    classCount := ← j.field? "class_count" int?
    files := ← j.field? "files" (list? Outline.ofJson?)
    techStack := ← j.field? "tech_stack" (list? text?)
    endpoints := ← j.field? "api_endpoints" (list? Endpoint.ofJson?)
    tables := ← j.field? "db_schema" (list? Table.ofJson?) }

theorem ofJson?_toJson (p : ProjectIndex) : ofJson? p.toJson = some p := by
  simp [ofJson?, toJson, list?_map Outline.ofJson?_toJson, list?_map Endpoint.ofJson?_toJson,
    list?_map Table.ofJson?_toJson]

theorem exact_toJson (p : ProjectIndex) : p.toJson.Exact := by
  simp [toJson]

/-! ### Integers that can be written -/

/-- The integers of an index: its totals and the line numbers of its records. -/
def integers (p : ProjectIndex) : List Int :=
  [p.fileCount, p.functionCount, p.classCount] ++ p.files.flatMap Outline.integers ++
    p.endpoints.map (·.line) ++ p.tables.map (·.line)

theorem isWritable_toJson (p : ProjectIndex) :
    p.toJson.isWritable = true ↔ ∀ n ∈ p.integers, n.natAbs < 10 ^ Text.maxDigits := by
  simp only [← Text.isShort_iff, toJson, isWritable_ofFields, integers]
  simp [Outline.isWritable_toJson, Endpoint.isWritable_toJson, Table.isWritable_toJson, or_imp,
    forall_and]
  tauto

/-- **An index has a text exactly if all its integers are short enough.** -/
theorem renderJson_eq_ok_iff {p : ProjectIndex} {text : Text} : p.renderJson = .ok text ↔
    (∀ n ∈ p.integers, n.natAbs < 10 ^ Text.maxDigits) ∧ p.toJson.render = text := by
  rw [← isWritable_toJson, renderJson]
  split
  · next h => simp [h]
  · next h => simp [h]

theorem renderJson_eq_error {p : ProjectIndex} {n : Int} (hn : n ∈ p.integers)
    (h : 10 ^ Text.maxDigits ≤ n.natAbs) : p.renderJson = .error .tooLong := by
  refine if_neg fun hwritable => ?_
  exact absurd (p.isWritable_toJson.1 hwritable n hn) (Nat.not_lt.2 h)

/-! ### The report -/

/-- **The JSON report loses nothing**, if no integer of the index has more than 4300 digits. Its
text is ASCII, and reading it gives the document with every field of the index under its name and in
its order, from which the index is recovered. No other index has the same text. -/
theorem renderJson_lossless {p : ProjectIndex}
    (h : ∀ n ∈ p.integers, n.natAbs < 10 ^ Text.maxDigits) :
    let function (f : FunctionDecl) : Json := .ofFields [("name", .str f.name),
      ("params", .arr (f.params.map .str)), ("line", .int f.line),
      ("return_type", ofText? f.returnType), ("is_async", .bool f.isAsync),
      ("is_exported", .bool f.isExported), ("description", ofText? f.description)]
    let file (o : Outline) : Json := .ofFields [("path", .str o.path),
      ("relative_path", .str o.relativePath), ("language", .str o.language),
      ("functions", .arr (o.functions.map function)),
      ("classes", .arr (o.classes.map fun c => .ofFields [("name", .str c.name),
        ("line", .int c.line), ("methods", .arr (c.methods.map function)),
        ("properties", .arr (c.properties.map .str)), ("is_exported", .bool c.isExported),
        ("description", ofText? c.description)])),
      ("interfaces", .arr (o.interfaces.map fun i => .ofFields [("name", .str i.name),
        ("line", .int i.line), ("properties", .arr (i.properties.map .str)),
        ("is_exported", .bool i.isExported), ("description", ofText? i.description)])),
      ("imports", .arr (o.imports.map fun i => .ofFields [("source", .str i.source),
        ("imports", .arr (i.imports.map .str)), ("line", .int i.line)]))]
    ∃ text, p.renderJson = .ok text ∧ Ascii text ∧
      parse? text = some (.ofFields [("project_name", .str p.projectName),
        ("generated", .str p.generated), ("file_count", .int p.fileCount),
        ("function_count", .int p.functionCount), ("class_count", .int p.classCount),
        ("files", .arr (p.files.map file)), ("tech_stack", .arr (p.techStack.map .str)),
        ("api_endpoints", .arr (p.endpoints.map fun e => .ofFields [("method", .str e.method),
          ("path", .str e.path), ("handler", .str e.handler), ("file", .str e.file),
          ("line", .int e.line), ("auth", .bool e.auth)])),
        ("db_schema", .arr (p.tables.map fun t => .ofFields [("name", .str t.name),
          ("file", .str t.file), ("line", .int t.line),
          ("columns", .arr (t.columns.map fun c => .ofFields [("name", .str c.name),
            ("type", .str c.type), ("nullable", .bool c.nullable), ("primary", .bool c.primary),
            ("foreign", ofText? c.foreign)]))]))]) ∧
      (parse? text).bind ofJson? = some p ∧
      ∀ q : ProjectIndex, q.renderJson = .ok text → q = p := by
  intro function file
  have hreads (p : ProjectIndex) : parse? p.toJson.render = some p.toJson :=
    parse?_render p.exact_toJson
  have hrecovers (p : ProjectIndex) : (parse? p.toJson.render).bind ofJson? = some p := by
    rw [hreads, Option.bind_some, ofJson?_toJson]
  refine ⟨p.toJson.render, renderJson_eq_ok_iff.2 ⟨h, rfl⟩, p.exact_toJson.ascii_renderAt 0,
    hreads p, hrecovers p, fun q hq => ?_⟩
  obtain ⟨-, hsame⟩ := renderJson_eq_ok_iff.1 hq
  rw [← Option.some.injEq, ← hrecovers q, hsame, hrecovers p]

/-- An index with characters that need escapes, and with a number beyond 64 bits. -/
def sampleIndex : ProjectIndex where
  projectName := ['a', '"', '\\', '\n', '\x7f', 'é', '\u2028', '😀']
  generated := "2024-01-01T00:00:00+00:00".toList
  fileCount := -18446744073709551616
  files := [{
    path := "/r/a.py".toList
    relativePath := "a.py".toList
    language := "python".toList
    functions := [{ name := "f".toList, params := [], line := 1, description := some [] }] }]

theorem renderJson_lossless_sampleIndex :
    (∀ n ∈ sampleIndex.integers, n.natAbs < 10 ^ Text.maxDigits) ∧
      ∃ text, sampleIndex.renderJson = .ok text ∧ Ascii text ∧
        (parse? text).bind ofJson? = some sampleIndex := by
  have hshort : ∀ n ∈ sampleIndex.integers, n.natAbs < 10 ^ Text.maxDigits := by decide +kernel
  obtain ⟨text, hrender, hascii, -, hrecovers, -⟩ := renderJson_lossless hshort
  exact ⟨hshort, text, hrender, hascii, hrecovers⟩

/-- An index with a total of 4301 digits. -/
def longIndex : ProjectIndex where
  projectName := []
  generated := []
  fileCount := 10 ^ Text.maxDigits

/-- **An index with an integer of more digits has no text.** -/
theorem renderJson_longIndex :
    longIndex.renderJson = .error .tooLong ∧ ∀ text, longIndex.renderJson ≠ .ok text := by
  have herror : longIndex.renderJson = .error .tooLong :=
    renderJson_eq_error (List.mem_cons_self ..) (by simp [longIndex, Int.natAbs_pow])
  exact ⟨herror, by simp [herror]⟩

end ProjectIndex

end CodeIndex
