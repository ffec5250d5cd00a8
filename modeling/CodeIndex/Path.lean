import CodeIndex.Text.Letter
import CodeIndex.Text.Basic

/-!
# Paths

A path is a text whose components stand between slashes. `components` drops what names nothing
(empty components and single dots), `resolve` also takes `..` back one step, from the root
directory. `relative root path` leads from one place to another, and `suffix` is the part of a file
name from its last dot on. `normal` writes a path without the components that name nothing and
leaves `..` alone, for what stands before it may be a link.
-/

namespace CodeIndex.Path

/-- The components of a path that name something. -/
def components (path : Text) : List Text :=
  (Text.splitChar '/' path).filter fun c => c ≠ [] && c ≠ ['.']

/-- One more component on a path from the root directory, held in reverse: `..` goes back one
step. -/
def push (above : List Text) (c : Text) : List Text :=
  if c = ['.', '.'] then above.tail else c :: above

/-- The components that lead from the root directory to a path. A relative path starts there too. -/
def resolve (path : Text) : List Text := ((components path).foldl push []).reverse

/-- The rests of two lists after the longest list with which both start. -/
def dropCommon : List Text → List Text → List Text × List Text
  | a :: s, b :: t => if a = b then dropCommon s t else (a :: s, b :: t)
  | s, t => (s, t)

/-- The way from the directory `root` to `path`, or a single dot when there is nothing to walk. -/
def relative (root path : Text) : Text :=
  let (up, down) := dropCommon (resolve root) (resolve path)
  match up.map (fun _ => ['.', '.']) ++ down with
  | [] => ['.']
  | steps => Text.join ['/'] steps

/-- The last component of a path, empty for the root directory and the empty path. -/
def name (path : Text) : Text := (components path).getLastD []

/-- A file name cut before its last dot: what stands before it, and what follows it. -/
def cutLastDot? (n : Text) : Option (Text × Text) :=
  (Text.cut? ['.'] n.reverse).map fun (ext, stem) => (stem.reverse, ext.reverse)

/-- The part of the last component from its last dot on. A dot at either end of it makes no
suffix. -/
def suffix (path : Text) : Text :=
  match cutLastDot? (name path) with
  | none => []
  | some (stem, ext) => if stem = [] || ext = [] then [] else '.' :: ext

/-- The suffix in small letters. -/
def lowerSuffix (path : Text) : Text := Text.lower (suffix path)

/-- The part of a path from its last dot on, whatever component that dot is in. -/
def extension (path : Text) : Text :=
  match cutLastDot? path with
  | none => []
  | some (_, ext) => '.' :: ext

/-! ## Normal form -/

/-- The slashes that make a path start at the root directory: one, or exactly two. -/
def anchor (path : Text) : Text :=
  match path.takeWhile (· = '/') with
  | [] => []
  | ['/', '/'] => ['/', '/']
  | _ => ['/']

/-- The path starts at the root directory. -/
def isAbsolute (path : Text) : Bool := anchor path ≠ []

/-- The text of a path with given components. -/
def ofComponents (anchor : Text) (cs : List Text) : Text :=
  if anchor = [] && cs.isEmpty then ['.'] else anchor ++ Text.join ['/'] cs

/-- The path without the components that name nothing. -/
def normal (path : Text) : Text := ofComponents (anchor path) (components path)

/-- The path that leads on from a directory. A path from the root directory stays as it is. -/
def append (directory path : Text) : Text :=
  if isAbsolute path then normal path
  else ofComponents (anchor directory) (components directory ++ components path)

/-- The path without its last component. -/
def parent (path : Text) : Text := ofComponents (anchor path) (components path).dropLast

/-- The rest of a path after a directory with which it starts, component by component. -/
def below? (directory path : Text) : Option Text :=
  if anchor directory = anchor path && (components directory).isPrefixOf (components path) then
    some (ofComponents [] ((components path).drop (components directory).length))
  else none

end CodeIndex.Path
