import CodeIndex.FileTree.Basic

/-!
# What changed in a tree

The files of a tree that an older tree does not have, or has with other bytes.
-/

namespace CodeIndex.Entry

/-- The entry is a file with the given bytes. -/
def holds (bytes : List UInt8) : Option Entry → Bool
  | some (file old) => old = bytes
  | _ => false

mutual

/-- The places and the bytes of the files that are new or have changed, below a place. -/
def changes (old : Entry) (here : Place) : Entry → List (Place × List UInt8)
  | file bytes => if holds bytes (old.get? here) then [] else [(here, bytes)]
  | directory entries => changesIn old here entries
  | link _ => []

/-- The places and the bytes of the files that are new or have changed, in the entries of a
directory. -/
def changesIn (old : Entry) (here : Place) : List (Text × Entry) → List (Place × List UInt8)
  | [] => []
  | (name, e) :: entries => changes old (here ++ [name]) e ++ changesIn old here entries

end

end CodeIndex.Entry
