import Stencil.Text.Basic

/-!
# Paths

A path is a text whose parts are separated by slashes. Empty parts and single dots say nothing,
except for a dot that a relative path begins with. Two paths are the same when what they say is
the same; the text of a path is kept as it was given, since it is shown to the user. Names that are
not Unicode text are left out here; they stand in raw paths.
-/

namespace Stencil

/-- A path, as it is written. All of its names are Unicode text. -/
structure Path where
  text : Text
  deriving DecidableEq, Repr

/-- What one part of a path says. -/
inductive Component where
  | root
  | current
  | parent
  | name (text : Text)
  deriving DecidableEq, Repr

/-- One step of following a path through a file tree. -/
inductive Step where
  /-- Stay, in what has to be a directory. -/
  | current
  | parent
  | name (text : Text)
  /-- The slash that ends a path: what was reached has to be a directory. -/
  | slash
  deriving DecidableEq, Repr

namespace Path

/-- Whether a path begins at the root. -/
def isAbsolute (path : Path) : Bool := path.text.head? == some '/'

/-- Whether a part of a path says nothing. -/
def isIdle (part : Text) : Bool := part == [] || part == ['.']

/-- What a path begins with, if that is a slash or a dot of its own, and its parts after that. -/
def headAndParts (path : Path) : Text × List Text :=
  match path.text with
  | '/' :: rest => (['/'], Text.cut '/' rest)
  | ['.'] => (['.'], [])
  | '.' :: '/' :: rest => (['.'], [] :: Text.cut '/' rest)
  | text => ([], Text.cut '/' text)

/-- The parts without the idle ones at the end. -/
def dropIdleEnd (parts : List Text) : List Text := (parts.reverse.dropWhile isIdle).reverse

/-- What a path says, part by part. -/
def components (path : Path) : List Component :=
  let (head, parts) := path.headAndParts
  let first := match head with
    | ['/'] => [Component.root]
    | ['.'] => [Component.current]
    | _ => []
  first ++ (parts.filter (!isIdle ·)).map fun part =>
    if part == ['.', '.'] then Component.parent else Component.name part

/-- The last part of a path, if that is a name. -/
def fileName? (path : Path) : Option Text :=
  match (dropIdleEnd path.headAndParts.2).getLast? with
  | some part => if part == ['.', '.'] then none else some part
  | none => none

/-- The path without its last part. -/
def parent (path : Path) : Path :=
  let (head, parts) := path.headAndParts
  ⟨head ++ Text.join '/' (dropIdleEnd (dropIdleEnd parts).dropLast)⟩

/-- A path followed by another one; an absolute path stands alone. -/
def append (base path : Path) : Path :=
  if path.isAbsolute ∨ base.text = [] then path
  else if base.text.getLast? = some '/' then ⟨base.text ++ path.text⟩
  else ⟨base.text ++ '/' :: path.text⟩

/-- The path with another last part. -/
def withFileName (path : Path) (name : Text) : Path := path.parent.append ⟨name⟩

/-- The steps that a path takes through a file tree. -/
def steps (path : Path) : List Step :=
  let parts := (Text.cut '/' path.text).filter (· != [])
  let walked := parts.map fun part =>
    if part == ['.'] then Step.current
    else if part == ['.', '.'] then Step.parent
    else Step.name part
  if path.text.getLast? = some '/' then walked ++ [.slash] else walked

end Path

end Stencil
