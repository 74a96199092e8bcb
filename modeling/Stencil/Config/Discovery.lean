import Stencil.Config.Read
import Stencil.File.Access

/-!
# Finding a configuration

A directory is searched for a few file names, the first of which wins. A directory without any of
them has no configuration, which is no fault.
-/

namespace Stencil.Config

/-- The file names of a configuration, in the order in which they are looked for. -/
def candidates : List Path :=
  ["tmplgen.toml", ".tmplgen.toml", ".config/tmplgen.toml"].map (⟨·.toList⟩)

variable {m : Type → Type} [Monad m] [FileAccess m]

/-- The first path that leads to a regular file. -/
def firstFile? : List Path → m (Option Path)
  | [] => return none
  | path :: rest => do if ← FileAccess.isFile path then return some path else firstFile? rest

/-- The configuration file of a directory. -/
def find? (root : Path) : m (Option Path) := firstFile? (candidates.map root.append)

/-- The configuration that a file holds. -/
def loadFile (path : Path) : m (Except Error Config) := do
  match ← FileAccess.readText path with
  | .error fault => return .error (.file fault)
  | .ok text => return read text

/-- The configuration of a directory, if it has one. -/
def load (root : Path) : m (Except Error (Option Config)) := do
  match ← find? root with
  | none => return .ok none
  | some path => return (← loadFile path).map some

end Stencil.Config
