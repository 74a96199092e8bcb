/-!
# Colours

Words of a report may be coloured, for a terminal that is told so by escape sequences.
-/

namespace Stencil

/-- The colours that reports use. -/
inductive Color where
  | red
  | green
  | yellow
  | blue
  | cyan
  deriving DecidableEq, Repr

namespace Color

/-- The sequence that makes what follows it appear in a colour. -/
def start : Color → String
  | red => "\x1b[31m"
  | green => "\x1b[32m"
  | yellow => "\x1b[33m"
  | blue => "\x1b[34m"
  | cyan => "\x1b[36m"

/-- The sequence that goes back to the ordinary colour. -/
def stop : String := "\x1b[39m"

/-- The sequence that ends all colours and styles. -/
def reset : String := "\x1b[0m"

end Color

/-- Show a text in a colour, if there are colours. -/
def paint (colored : Bool) (color : Color) (text : String) : String :=
  if colored then color.start ++ text ++ Color.stop else text

end Stencil
