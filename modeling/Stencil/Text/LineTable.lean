/-!
# Line tables

The positions at which the lines of a text begin, built in one pass and searched by bisection.
A line ends at a line feed and belongs to it. The table works for any unit of counting, so the
same table answers in characters or in bytes.
-/

namespace Stencil

/-- Where each line begins; the first line begins at 0. -/
structure LineTable where
  starts : Array Nat
  deriving Repr

namespace LineTable

variable {α : Type} [BEq α]

/-- The positions just after each `feed` among the units, the first unit standing at `position`. -/
def startsAfter (feed : α) (position : Nat) : List α → List Nat
  | [] => []
  | unit :: rest =>
    if unit == feed then (position + 1) :: startsAfter feed (position + 1) rest
    else startsAfter feed (position + 1) rest

/-- The table of the lines that `feed` ends. -/
def ofUnits (feed : α) (units : List α) : LineTable := ⟨(0 :: startsAfter feed 0 units).toArray⟩

/-- The table of a text, counting in characters. -/
def ofText (text : List Char) : LineTable := ofUnits '\n' text

/--
How many entries of an increasing array are at most `offset`, when those below `low` are and those
from `high` on are not.
-/
def countUpTo (starts : Array Nat) (offset low high : Nat) : Nat :=
  if low < high then
    let middle := low + (high - low) / 2
    if starts.getD middle 0 ≤ offset then countUpTo starts offset (middle + 1) high
    else countUpTo starts offset low middle
  else low
  termination_by high - low

/-- The index, from 0, of the line that holds `offset`. -/
def index (table : LineTable) (offset : Nat) : Nat :=
  countUpTo table.starts offset 0 table.starts.size - 1

/-- The number, from 1, of the line that holds `offset`; past the end it is the last line. -/
def line (table : LineTable) (offset : Nat) : Nat := table.index offset + 1

/-- Where the line that holds `offset` begins. -/
def lineStart (table : LineTable) (offset : Nat) : Nat := table.starts.getD (table.index offset) 0

end LineTable

end Stencil
