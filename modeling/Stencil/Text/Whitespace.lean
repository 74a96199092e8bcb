import Stencil.Text.Basic

/-!
# Whitespace

Three notions of whitespace are in use: blanks (`Text.isBlank`), the ASCII whitespace that pads
the inside of a block comment, and the characters of all scripts with the property White_Space.
-/

namespace Stencil.Text

/-- ASCII whitespace: space, tab, line feed, form feed and carriage return. -/
def isAsciiSpace (c : Char) : Bool :=
  c == ' ' || c == '\t' || c == '\n' || c == '\x0c' || c == '\r'

/-- The characters with the property White_Space. -/
def isSpace (c : Char) : Bool :=
  let n := c.toNat
  (0x09 ≤ n && n ≤ 0x0d) || n == 0x20 || n == 0x85 || n == 0xa0 || n == 0x1680 ||
    (0x2000 ≤ n && n ≤ 0x200a) || n == 0x2028 || n == 0x2029 || n == 0x202f || n == 0x205f ||
    n == 0x3000

end Stencil.Text
