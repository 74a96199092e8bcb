import Stencil.LineDiff.Basic

/-!
# Shortest differences

Two lists of lines are compared by searching for a shortest way from the beginning of both to the
end of both, where a step goes past one line of either list and a slide past lines that both have
goes for free. The search runs from both ends in turn, and where the two first meet, the lists are
divided and both parts compared on their own.
-/

namespace Stencil

/-- How many lines of the old and of the new list a way has gone past. -/
structure Progress where
  old : Nat
  new : Nat
  deriving DecidableEq, Repr

/-- A slide past lines that both lists have. -/
structure Slide where
  start : Progress
  stop : Progress
  deriving DecidableEq, Repr

namespace Progress

/-- Go on from the better of two neighbours: past a new line from the one that is ahead in the old
list by more, or past an old line from the other one, which wins a tie. -/
def extend : Option Progress → Option Progress → Progress
  | some ahead, some behind =>
    if behind.old < ahead.old then ⟨ahead.old, ahead.new + 1⟩ else ⟨behind.old + 1, behind.new⟩
  | some ahead, none => ⟨ahead.old, ahead.new + 1⟩
  | none, some behind => ⟨behind.old + 1, behind.new⟩
  | none, none => ⟨0, 0⟩

/-- Slide from a point as far as both lists agree. -/
def slide (old new : List Text) (start : Progress) : Slide :=
  let length := commonPrefix (old.drop start.old) (new.drop start.new)
  ⟨start, ⟨start.old + length, start.new + length⟩⟩

end Progress

/-- The furthest ways with one more step than those of `reached`, which are ordered by how much
further they are in the old list than in the new one, the largest lead first. -/
def nextSlides (old new : List Text) (reached : List Progress) : List Slide :=
  List.zipWith (fun ahead behind => (Progress.extend ahead behind).slide old new)
    (none :: reached.map some) (reached.map some ++ [none])

/-- Whether a way from the beginning and a way from the end, with the same lead, have gone past all
lines of the old list between them. -/
def meets (oldSize newSize : Nat) (front back : Progress) : Bool :=
  front.old + back.old + newSize == front.new + back.new + oldSize &&
    oldSize ≤ front.old + back.old

/-- Where the ways from both ends first meet, searched in rounds of one more step from either end. -/
def meeting? (old new : List Text) : Nat → List Progress → List Progress → Option Progress
  | 0, _, _ => none
  | rounds + 1, fronts, backs =>
    let meets := meets old.length new.length
    let forward := nextSlides old new fronts
    match forward.find? fun slide => backs.any (meets slide.stop) with
    | some slide => some slide.start
    | none =>
      let fronts := forward.map (·.stop)
      let backward := nextSlides old.reverse new.reverse backs
      match backward.find? fun slide => fronts.any (meets · slide.stop) with
      | some slide => some ⟨old.length - slide.stop.old, new.length - slide.stop.new⟩
      | none => meeting? old new rounds fronts (backward.map (·.stop))

/-- Where two lists are divided. Half of the steps past all lines, rounded up, reach the middle from
either end. -/
def middle? (old new : List Text) : Option Progress :=
  meeting? old new ((old.length + new.length + 1) / 2 + 1) [] []

namespace Change

/-- Changes of the lines that are there. -/
def ofLines (kind : ChangeKind) : List Text → List Change
  | [] => []
  | lines => [⟨kind, lines⟩]

/-- The changes from one list of lines to another: common lines at both ends are kept, and what is
left is divided, at most `depth` times over. -/
def between (depth : Nat) (old new : List Text) : List Change :=
  let head := commonPrefix old new
  let left := old.drop head
  let right := new.drop head
  let tail := commonSuffix left right
  let removed := left.take (left.length - tail)
  let added := right.take (right.length - tail)
  let inner :=
    match depth with
    | 0 => ofLines .remove removed ++ ofLines .add added
    | depth + 1 =>
      if removed = [] ∨ added = [] then ofLines .remove removed ++ ofLines .add added
      else
        match middle? removed added with
        | none => ofLines .remove removed ++ ofLines .add added
        | some point =>
          between depth (removed.take point.old) (added.take point.new) ++
            between depth (removed.drop point.old) (added.drop point.new)
  ofLines .keep (old.take head) ++ inner ++ ofLines .keep (left.drop (left.length - tail))

end Change

end Stencil
