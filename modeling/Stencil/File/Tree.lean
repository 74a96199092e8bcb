import Stencil.Error
import Stencil.File.Path
import Stencil.Text.Utf8

/-!
# File trees

A tree of regular files, directories and symbolic links, by the names that lead from the root to
each of them. Paths are followed as a file system does: every link on the way is followed, up to a
limit, and a link at the end too.
-/

namespace Stencil

/-- What a regular file holds. -/
inductive Content where
  | text (text : Text)
  /-- Bytes that are not UTF-8. -/
  | binary (bytes : List UInt8)
  deriving DecidableEq, Repr

/-- The content that some bytes are. -/
def Content.ofBytes (bytes : List UInt8) : Content :=
  match Text.ofUtf8? bytes with
  | some decoded => .text decoded
  | none => .binary bytes

/-- The names that lead from the root to a place in a tree. -/
abbrev Location := List Text

/-- What stands at a place in a tree. -/
inductive Node where
  | file (content : Content)
  | directory
  | link (target : Path)
  deriving DecidableEq, Repr

/-- A tree and the directory in it at which relative paths begin. -/
structure FileTree where
  nodes : List (Location × Node)
  workingDirectory : Location
  deriving DecidableEq, Repr

namespace FileTree

/-- What stands at a location. The working directory and those around it are always there. -/
def node? (tree : FileTree) (location : Location) : Option Node :=
  if location.isPrefixOf tree.workingDirectory then some .directory
  else tree.nodes.lookup location

/-- Put something at a location, in the place of what is there. -/
def set (tree : FileTree) (location : Location) (node : Node) : FileTree :=
  { tree with
    nodes :=
      if tree.nodes.any (·.1 == location) then
        tree.nodes.map fun entry => if entry.1 == location then (location, node) else entry
      else tree.nodes ++ [(location, node)] }

/-- The tree without what stands at a location and below it. -/
def erase (tree : FileTree) (location : Location) : FileTree :=
  { tree with nodes := tree.nodes.filter fun entry => !location.isPrefixOf entry.1 }

/-- How many links are followed for one path. -/
def linkLimit : Nat := 40

/--
Follow steps from a location. When a file is to be created, the last name may be missing, and it
may not be written as that of a directory.
-/
def walk (tree : FileTree) (creating : Bool) (links : Nat) (steps : List Step)
    (location : Location) : Except FileFault Location :=
  match steps with
  | [] => .ok location
  | step :: rest =>
    match tree.node? location with
    | none => .error .notFound
    | some (.file _) | some (.link _) => .error .notDirectory
    | some .directory =>
      match step with
      | .current | .slash => walk tree creating links rest location
      | .parent => walk tree creating links rest location.dropLast
      | .name name =>
        if creating ∧ rest = [.slash] then .error .isDirectory
        else
          match tree.node? (location ++ [name]) with
          | none => if creating ∧ rest = [] then .ok (location ++ [name]) else .error .notFound
          | some (.link target) =>
            match links with
            | 0 => .error .tooManyLinks
            | links + 1 =>
              walk tree creating links (target.steps ++ rest)
                (if target.isAbsolute then [] else location)
          | some _ => walk tree creating links rest (location ++ [name])
  termination_by (links, steps.length)

/-- Follow a path from the working directory, or from the root if it is absolute. -/
def follow (tree : FileTree) (creating : Bool) (path : Path) : Except FileFault Location :=
  if path.text = [] then .error .notFound
  else tree.walk creating linkLimit path.steps
    (if path.isAbsolute then [] else tree.workingDirectory)

/-- The location of what a path leads to. -/
def resolve (tree : FileTree) (path : Path) : Except FileFault Location := tree.follow false path

/-- Whether a path leads to a regular file. -/
def isFile (tree : FileTree) (path : Path) : Bool :=
  match tree.resolve path with
  | .ok location => match tree.node? location with
    | some (.file _) => true
    | _ => false
  | .error _ => false

/-- The text of the file that a path leads to. -/
def readText (tree : FileTree) (path : Path) : Except FileFault Text :=
  match tree.resolve path with
  | .error fault => .error fault
  | .ok location =>
    match tree.node? location with
    | some (.file (.text text)) => .ok text
    | some (.file (.binary _)) => .error .invalidText
    | some .directory => .error .isDirectory
    | some (.link _) | none => .error .notFound

/-- Fill the file that a path leads to, which is created if its directory is there. -/
def write (tree : FileTree) (path : Path) (content : Content) : Except FileFault FileTree :=
  match tree.follow true path with
  | .error fault => .error fault
  | .ok location =>
    match tree.node? location with
    | some .directory => .error .isDirectory
    | _ => .ok (tree.set location (.file content))

/-- The names of a path that are to be made below the working directory. -/
def namesOf (path : Path) : Location :=
  path.steps.filterMap fun
    | .name text => some text
    | _ => none

/-- Put something below the working directory, with the directories that lead to it. -/
def place (tree : FileTree) (path : Path) (node : Node) : FileTree :=
  let names := namesOf path
  let parents := (List.range names.length).tail.map names.take
  let based := parents.foldl (fun (tree : FileTree) parent =>
    let location := tree.workingDirectory ++ parent
    if (tree.node? location).isSome then tree else tree.set location .directory) tree
  based.set (tree.workingDirectory ++ names) node

/-- What is below the working directory, by path from there; a directory's path ends in a slash. -/
def listing (tree : FileTree) : List (Path × Node) :=
  (tree.nodes.filter fun entry => tree.workingDirectory.isPrefixOf entry.1).map
    fun (location, node) =>
      let text := Text.join '/' (location.drop tree.workingDirectory.length)
      (⟨if node = .directory then text ++ ['/'] else text⟩, node)

end FileTree

end Stencil
