import Stencil.CommandLine.Run
import Stencil.Proofs.File.Access

/-!
# Commands in a tree

A command loads its configuration first, which changes nothing. If that fails the command ends there
with the code 2; otherwise the command is run with the configuration in the same tree.
-/

namespace Stencil

namespace Config

theorem leavesTree_loadFile (path : Path) : LeavesTree (loadFile path) := by
  refine (LeavesTree.readText path).bind fun text => ?_
  split <;> exact .pure _

theorem leavesTree_firstFile? (paths : List Path) : LeavesTree (firstFile? paths) := by
  induction paths with
  | nil => exact .pure none
  | cons path rest ih =>
    refine (LeavesTree.isFile path).bind fun found => ?_
    split
    · exact .pure _
    · exact ih

theorem leavesTree_load (root : Path) : LeavesTree (load root) := by
  refine (leavesTree_firstFile? _).bind fun found => ?_
  split
  · exact .pure _
  · exact (leavesTree_loadFile _).bind fun _ => .pure _

end Config

namespace CommandLine

variable (environment : Environment) (options : CommonOptions)

theorem leavesTree_loadConfig : LeavesTree (loadConfig environment options) := by
  rw [loadConfig]
  split
  · exact (Config.leavesTree_loadFile _).bind fun _ => .pure _
  · refine (Config.leavesTree_load _).bind fun found => ?_
    split <;> exact .pure _

/-- The configuration that a run in a tree has. -/
def configIn (tree : FileTree) : Except Error Config :=
  ((loadConfig environment options : StateM FileTree _) tree).1.value

/-- What is logged when the configuration is loaded in a tree. -/
def configLog (tree : FileTree) : List Chunk :=
  (display environment options).log
    ((loadConfig environment options : StateM FileTree _) tree).1.entries

variable {environment options} {tree : FileTree} {command : Command}

private theorem runCommand_run (hshares : sharesOutput command = false) :
    (runCommand environment options command : StateM FileTree _) tree =
      match configIn environment options tree with
      | .error fault =>
        (⟨configLog environment options tree ++
          [(display environment options).diagnostic fault], 2⟩, tree)
      | .ok config =>
        let run :=
          (runConfigured (display environment options) config command : StateM FileTree _) tree
        (run.1.after (configLog environment options tree), run.2) := by
  have htree := leavesTree_loadConfig environment options tree
  dsimp only [runCommand, configIn, configLog]
  rw [hshares, if_neg (by simp), bind_run]
  cases hload : (loadConfig environment options : StateM FileTree _) tree with
  | mk noted after =>
    rw [hload] at htree
    obtain rfl : after = tree := htree
    obtain ⟨entries, value⟩ := noted
    cases value <;> rfl

/-- With a configuration the command is run in the same tree. -/
theorem runCommand_of_config {config : Config} (hshares : sharesOutput command = false)
    (hconfig : configIn environment options tree = .ok config) :
    let run := (runConfigured (display environment options) config command : StateM FileTree _) tree
    (runCommand environment options command : StateM FileTree _) tree =
      (run.1.after (configLog environment options tree), run.2) := by
  rw [runCommand_run hshares, hconfig]

/-- Without a configuration the command fails and changes nothing. -/
theorem runCommand_of_fault {fault : Error} (hshares : sharesOutput command = false)
    (hconfig : configIn environment options tree = .error fault) :
    let result := (runCommand environment options command : StateM FileTree _) tree
    result.1.exit = 2 ∧ result.2 = tree := by
  intro result
  simp only [result]
  rw [runCommand_run hshares, hconfig]
  exact ⟨rfl, rfl⟩

end CommandLine

end Stencil
