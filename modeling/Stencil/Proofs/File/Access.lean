import Stencil.File.Access

/-!
# Acts on a tree

Acts are run one after the other. Reading a file and asking where a path leads leave a tree as it
is, and so does every act that is put together from such questions only.
-/

namespace Stencil

section run

variable {α β : Type} (tree : FileTree)

theorem pure_run (value : α) : (pure value : StateM FileTree α) tree = (value, tree) := rfl

theorem bind_run (act : StateM FileTree α) (next : α → StateM FileTree β) :
    (act >>= next) tree = next (act tree).1 (act tree).2 := rfl

theorem readText_run (path : Path) :
    (FileAccess.readText path : StateM FileTree _) tree = (tree.readText path, tree) := rfl

end run

/-- The act leaves every tree as it is. -/
def LeavesTree {α : Type} (act : StateM FileTree α) : Prop := ∀ tree, (act tree).2 = tree

namespace LeavesTree

variable {α β : Type}

theorem pure (value : α) : LeavesTree (Pure.pure value) := fun _ => rfl

theorem bind {act : StateM FileTree α} {next : α → StateM FileTree β} (hact : LeavesTree act)
    (hnext : ∀ value, LeavesTree (next value)) : LeavesTree (act >>= next) := by
  intro tree
  rw [bind_run, hnext, hact]

theorem readText (path : Path) : LeavesTree (FileAccess.readText path) := fun _ => rfl

theorem canonical? (path : Path) : LeavesTree (FileAccess.canonical? path) := fun _ => rfl

theorem isFile (path : Path) : LeavesTree (FileAccess.isFile path) := fun _ => rfl

end LeavesTree

end Stencil
