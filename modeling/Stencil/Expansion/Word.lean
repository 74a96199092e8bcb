import Stencil.Text.Search

/-!
# Whole-word replacement

An occurrence of a word counts where neither neighbour is an ASCII letter or digit. Occurrences
are searched for from left to right; what was put in is not looked at again, and the neighbours are
those that the occurrence has before anything is replaced. An occurrence that does not count may
overlap with one that does, so the search goes on one character behind its start.

The search works on any units that a text is written in. A character may take several of them, and
only the first of those can begin an occurrence.
-/

namespace Stencil

open Text

/-- What replacing words has to know about the units that texts are written in. -/
structure Units (α : Type) where
  /-- Whether a unit is an ASCII letter or digit. -/
  isAlphanumeric : α → Bool
  /-- How many units the character takes behind the unit that it begins with. -/
  more : α → Nat

namespace Units

/-- Each character of a text is one unit. -/
def characters : Units Char := ⟨Char.isAlphanum, fun _ => 0⟩

variable {α : Type}

/-- Whether a word may end next to this unit, or at the end of the text. -/
def isBoundary (units : Units α) : Option α → Bool
  | none => true
  | some unit => !units.isAlphanumeric unit

/-- Whether a word that stands between two positions has no letter or digit next to it. -/
def isFree (units : Units α) (text : List α) (start stop : Nat) : Bool :=
  units.isBoundary (text.take start).getLast? && units.isBoundary text[stop]?

variable [BEq α]

/--
Replace the words of a text from the position `search` on. The units between `copied` and `search`
are in no occurrence that counts, and are written when the next one is found.
-/
def replaceFrom (units : Units α) (word replacement text : List α) (nonempty : word ≠ [])
    (copied search : Nat) : List α :=
  match found : find? word (text.drop search) nonempty with
  | none => text.drop copied
  | some distance =>
    let start := search + distance
    let stop := start + word.length
    if units.isFree text start stop then
      (text.take start).drop copied ++ replacement ++
        replaceFrom units word replacement text nonempty stop stop
    else
      let further := text[start]?.elim 0 units.more
      replaceFrom units word replacement text nonempty copied (start + 1 + further)
  termination_by text.length - search
  decreasing_by
    all_goals
      have hbound := find?_bound found
      have hword := List.length_pos_iff.mpr nonempty
      rw [List.length_drop] at hbound
      omega

/-- Replace every whole-word occurrence of `word`; the empty word occurs nowhere. -/
def replace (units : Units α) (text word replacement : List α) : List α :=
  if nonempty : word ≠ [] then units.replaceFrom word replacement text nonempty 0 0 else text

end Units

/-- Replace every whole-word occurrence of `word` in a text. -/
def replaceWord (text word replacement : Text) : Text :=
  Units.characters.replace text word replacement

end Stencil
