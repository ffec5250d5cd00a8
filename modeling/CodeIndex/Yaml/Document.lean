import CodeIndex.Text.Quoted
import CodeIndex.Yaml.Node
import CodeIndex.Yaml.Scalar

/-!
# Values of YAML documents

`load` gives a document its value. Collections are filled level by level, so of several faults the
one on the outermost level counts, and on one level the first one.
-/

namespace CodeIndex.Yaml

/-- A computation that remembers the fault that counts, with its level. -/
abbrev Constructor := StateM (Option (Nat × Fault))

namespace Constructor

/-- Reports a fault on a level. -/
def report (level : Nat) (f : Fault) : Constructor Unit :=
  modify fun
    | some (l, g) => if l ≤ level then some (l, g) else some (level, f)
    | none => some (level, f)

/-- Reports a malformed part on a level, which has no value. -/
def malformed (level : Nat) : Constructor Value := do
  report level .malformed
  return .null

/-- The key is marked as one whose value is merged into its mapping. -/
def isMerge : Node → Bool
  | .scalar tag _ => tag = Tag.merge
  | _ => false

/-- A key, which is a string if it is the mark of the value of its mapping. -/
def plainKey : Node → Node
  | .scalar tag text => .scalar (if tag = Tag.value then Tag.str else tag) text
  | n => n

/-- The entries of a mapping, the merged ones first. Of several mappings that are merged, the first
one comes last. -/
def flatten (level : Nat) : (depth : Nat) → List (Node × Node) → Constructor (List (Node × Node))
  | 0, _ => return []
  | depth + 1, entries => do
    let flattened : Node → Constructor (List (Node × Node))
      | .mapping _ es => flatten level depth es
      | .cycle _ => return []
      | _ => do
        report level .malformed
        return []
    let merged ← (entries.filter (isMerge ·.1)).mapM fun (_, v) =>
      match v with
      | .sequence _ items => return (← items.mapM flattened).reverse.flatten
      | v => flattened v
    let own := (entries.filter (!isMerge ·.1)).map fun (k, v) => (plainKey k, v)
    return merged.flatten ++ own

/-- The tags of collections. -/
def isCollectionTag (tag : Text) : Bool :=
  [Tag.seq, Tag.map, Tag.set, Tag.omap, Tag.pairs].contains tag

/-- The text that a mapping gives itself as a scalar. -/
def scalarText? : (depth : Nat) → Node → Option Text
  | 0, _ => none
  | depth + 1, n =>
    match n with
    | .scalar _ text => some text
    | .mapping _ entries =>
      match entries.find? fun e => match e.1 with
        | .scalar tag _ => tag = Tag.value
        | _ => false with
      | some e => scalarText? depth e.2
      | none => none
    | _ => none

/-- A value that can be a key. -/
def isKey : Value → Bool
  | .list _ | .map _ | .set _ => false
  | _ => true

/-- The entries of a mapping with one more entry. A string that is already a key gets the new
value. -/
def insert (entries : List (Value × Value)) (k v : Value) : List (Value × Value) :=
  match k with
  | .str s =>
    let isSame : Value → Bool
      | .str t => t = s
      | _ => false
    if entries.any (isSame ·.1) then entries.map fun e => if isSame e.1 then (e.1, v) else e
    else entries ++ [(k, v)]
  | k => entries ++ [(k, v)]

variable (construct : (level : Nat) → Node → Constructor Value)

/-- The entries of a mapping on a level. -/
def entriesOf (level depth : Nat) (entries : List (Node × Node)) :
    Constructor (List (Value × Value)) := do
  let flat ← flatten level depth entries
  flat.foldlM (fun es (k, v) => do
    let k ← construct level k
    unless isKey k do report level .malformed
    return insert es k (← construct level v)) []

/-- The only entry of a mapping, as a pair. -/
def pairOf (level : Nat) : Node → Constructor Value
  | .mapping _ [(k, v)] => return .pair (← construct level k) (← construct level v)
  | _ => malformed level

/-- The value of a node with a tag for scalars, or with an unknown tag. -/
def scalarOf (level depth : Nat) (tag : Text) (n : Node) : Constructor Value :=
  match scalarText? depth n with
  | none => malformed level
  | some text =>
    match Scalar.value? tag text with
    | some (.ok v) => return v
    | some (.error f) => do
      report level f
      return .null
    | none => malformed (if isCollectionTag tag then level + 1 else level)

/-- The value of a node on a level. -/
def valueOf (level depth : Nat) : Node → Constructor Value
  | .cycle _ => return .map []
  | .scalar tag text => scalarOf level depth tag (.scalar tag text)
  | .sequence tag items =>
    if tag = Tag.seq then return .list (← items.mapM (construct (level + 1)))
    else if tag = Tag.omap || tag = Tag.pairs then
      return .list (← items.mapM (pairOf construct (level + 1)))
    else malformed (if isCollectionTag tag then level + 1 else level)
  | .mapping tag entries =>
    if tag = Tag.map then return .map (← entriesOf construct (level + 1) depth entries)
    else if tag = Tag.set then
      return .set ((← entriesOf construct (level + 1) depth entries).map (·.1))
    else if isCollectionTag tag then malformed (level + 1)
    else scalarOf level depth tag (.mapping tag entries)

end Constructor

/-- The value of a node on a level, to a depth. -/
def construct : (depth level : Nat) → Node → Constructor Value
  | 0, level, _ => Constructor.malformed level
  | depth + 1, level, n => Constructor.valueOf (fun l m => construct depth l m) level (depth + 1) n

/-- The value of a document. One without content is null. -/
def load (document : Text) : Except Fault Value := do
  match ← root? document with
  | none => return .null
  | some root =>
    match (construct (root.depth + 1) 0 root).run none with
    | (v, none) => return v
    | (_, some (_, f)) => throw f

/-- What reads documents. A value that contains itself is given unfolded, further than settings are
read. -/
abbrev Parser := Text → Except Fault Value

/-- A fault in words. -/
def Fault.message : Fault → Text
  | malformed => "malformed document".toList
  | notInteger base t =>
    "invalid literal for int() with base ".toList ++ Text.ofNat base ++ ": ".toList ++ Text.quoted t
  | tooManyDigits n =>
    "Exceeds the limit (4300 digits) for integer string conversion: value has ".toList ++
      Text.ofNat n ++ " digits; use sys.set_int_max_str_digits() to increase the limit".toList
  | notFloat t => "could not convert string to float: ".toList ++ Text.quoted t
  | emptyNumber => "string index out of range".toList
  | notBool t => Text.quoted t
  | notTime => "'NoneType' object has no attribute 'groupdict'".toList
  | noSuchTime reason => reason
  | noSuchCharacter => "chr() arg not in range(0x110000)".toList

end CodeIndex.Yaml
