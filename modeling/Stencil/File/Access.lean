import Stencil.File.Tree

/-!
# Access to files

What a run needs of a file system, so that the same run can be carried out on the files of a
machine and on a file tree.
-/

namespace Stencil

/-- The operations on files. -/
class FileAccess (m : Type → Type) where
  /-- The text of a file. -/
  readText (path : Path) : m (Except FileFault Text)
  /-- Fill a file with a text, creating it if need be. -/
  writeText (path : Path) (text : Text) : m (Except FileFault Unit)
  /-- Where a path leads once all links are followed, if it leads anywhere. -/
  canonical? (path : Path) : m (Option Location)
  /-- Whether a path leads to a regular file. -/
  isFile (path : Path) : m Bool

/-- On a file tree, reading leaves the tree as it is, and writing changes one file. -/
instance : FileAccess (StateM FileTree) where
  readText path := fun tree => (tree.readText path, tree)
  writeText path text := fun tree =>
    match tree.write path (.text text) with
    | .error fault => (.error fault, tree)
    | .ok written => (.ok (), written)
  canonical? path := fun tree => (tree.resolve path |>.toOption, tree)
  isFile path := fun tree => (tree.isFile path, tree)

end Stencil
