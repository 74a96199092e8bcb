import Stencil.File.Path
import Stencil.Text.Utf8

/-!
# Paths as bytes

A system keeps paths as bytes, and a name in a path need not be text. A slash or a dot is one byte
wherever it stands, so a path has the parts that the text with one character for each byte has.
-/

namespace Stencil

/-- A path, as it is kept by a system. -/
structure RawPath where
  bytes : List UInt8
  deriving DecidableEq, Repr

namespace RawPath

/-- The path with one character for each byte. -/
def bytewise (path : RawPath) : Path := ⟨Text.ofBytes path.bytes⟩

/-- The path with the byte in the place of each character that stands for one. -/
def ofBytewise (path : Path) : RawPath := ⟨path.text.map Char.toUInt8⟩

/-- The last part of a path, if that is a name. -/
def fileName? (path : RawPath) : Option (List UInt8) :=
  path.bytewise.fileName?.map (List.map Char.toUInt8)

/-- The path with another last part. -/
def withFileName (path : RawPath) (name : List UInt8) : RawPath :=
  ofBytewise (path.bytewise.withFileName (Text.ofBytes name))

end RawPath

/-- The bytes of a path that is text. -/
def Path.raw (path : Path) : RawPath := ⟨Text.utf8 path.text⟩

end Stencil
