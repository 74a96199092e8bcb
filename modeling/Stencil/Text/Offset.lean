import Stencil.Text.Basic

/-!
# Byte offsets

Positions count characters; the outside world counts the bytes of the UTF-8 text. This module
converts both ways. A byte offset may fall inside a character, and then it has a position on
either side.
-/

namespace Stencil.Text

/-- The byte offset of a position. -/
def offsetOf (text : Text) (position : Nat) : Nat := byteSize (text.take position)

/-- The position of the first character that begins at or after a byte offset. -/
def positionAfter (offset : Nat) : Text → Nat
  | [] => 0
  | c :: rest => if offset = 0 then 0 else positionAfter (offset - c.utf8Size) rest + 1

/-- The position of the character that a byte offset falls in, or the end of the text. -/
def positionWithin (offset : Nat) : Text → Nat
  | [] => 0
  | c :: rest => if offset < c.utf8Size then 0 else positionWithin (offset - c.utf8Size) rest + 1

/-- The byte offsets of all positions of a text, the end included, in order. -/
structure Offsets where
  entries : Array Nat

/-- Each position's offset is its predecessor's and the size of the character between them. -/
def Offsets.ofText (text : Text) : Offsets :=
  ⟨text.foldl (fun entries c => entries.push (entries.back?.getD 0 + c.utf8Size)) #[0]⟩

/-- The byte offset of a position; beyond the end it is the size of the text. -/
def Offsets.ofPosition (offsets : Offsets) (position : Nat) : Nat :=
  offsets.entries.getD position (offsets.entries.back?.getD 0)

end Stencil.Text
