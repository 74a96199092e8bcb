import Stencil.Proofs.File.Steps

/-!
# What a path says

The components of a path are told part by part, however its text is cut, behind what the first part
tells about where the path begins. So a path with a name says what its parent says and then the
name, and a path that is appended adds what it says itself.
-/

namespace Stencil.Path

open Text

variable {path : Path} {name : Text} {parts kept : List Text}

/-! ## Parts -/

/-- Only the name of a path is replaced by another one: what stands in front of it says the same. -/
structure Replaces (input output : Path) (name renamed : Text) : Prop where
  output_eq : output = input.withFileName renamed
  input_components : input.components = input.parent.components ++ [.name name]
  output_components : output.components =
    input.parent.components ++ (Path.mk renamed).components

end Stencil.Path
