import Stencil.LineDiff.Search

/-!
# Settling differences

A shortest difference is not unique. A difference is settled by moving removals, and then
additions, as far up and then as far down as lines that repeat allow, which brings changes
together; between kept lines all removals come before all additions.
-/

namespace Stencil

namespace Change

/-- How much room changes take: their lines, and one for each change. -/
def room (changes : List Change) : Nat :=
  changes.foldr (fun change size => change.lines.length + 1 + size) 0

@[simp] theorem room_nil : room [] = 0 := rfl

@[simp] theorem room_cons (change : Change) (changes : List Change) :
    room (change :: changes) = change.lines.length + 1 + room changes := rfl

theorem room_ofLines (kind : ChangeKind) (lines : List Text) :
    room (ofLines kind lines) ≤ lines.length + 1 := by
  cases lines <;> simp [ofLines]

theorem room_append (left right : List Change) : room (left ++ right) = room left + room right := by
  induction left with
  | nil => simp
  | cons change left ih => simp [ih, Nat.add_assoc]

/-- Put kept lines in front of changes. -/
def keepBefore (kept : List Text) : List Change → List Change
  | ⟨.keep, lines⟩ :: rest => ⟨.keep, kept ++ lines⟩ :: rest
  | changes => ⟨.keep, kept⟩ :: changes

/-- Put kept lines behind changes, the last of which comes first. -/
def keepAfter (kept : List Text) : List Change → List Change
  | ⟨.keep, lines⟩ :: rest => ⟨.keep, lines ++ kept⟩ :: rest
  | changes => ⟨.keep, kept⟩ :: changes

/-- A change with what comes before it, the nearest first, and what comes after it. -/
structure Place where
  above : List Change
  here : Change
  below : List Change
  deriving DecidableEq, Repr

namespace Place

/-- How many kept lines above a change it trades places with: those that it ends with, if it is an
addition. -/
def tradesUp (kept : List Text) (here : Change) : Nat :=
  if here.kind = .add then commonSuffix kept here.lines else 0

/-- How many kept lines below a change it trades places with: those that it begins with, if it is an
addition. -/
def tradesDown (kept : List Text) (here : Change) : Nat :=
  if here.kind = .add then commonPrefix kept here.lines else 0

theorem tradesUp_le (kept : List Text) (here : Change) : tradesUp kept here ≤ kept.length := by
  unfold tradesUp
  split
  · exact (commonSuffix_le kept here.lines).1
  · exact Nat.zero_le _

theorem tradesDown_le (kept : List Text) (here : Change) : tradesDown kept here ≤ kept.length := by
  unfold tradesDown
  split
  · exact (commonPrefix_le kept here.lines).1
  · exact Nat.zero_le _

/-- Move an addition or removal up as far as it goes. An addition trades places with kept lines that
it ends with; changes of one kind become one. -/
def moveUp : Place → Place
  | ⟨[], here, below⟩ => ⟨[], here, below⟩
  | ⟨next :: above, here, below⟩ =>
    if next.kind = .keep then
      let traded := tradesUp next.lines here
      if traded = 0 then ⟨next :: above, here, below⟩
      else
        let staying := next.lines.length - traded
        let kept := next.lines.drop staying
        moveUp {
          above := ofLines .keep (next.lines.take staying) ++ above
          here := ⟨.add, kept ++ here.lines.take (here.lines.length - traded)⟩
          below := keepBefore kept below }
    else if next.kind = here.kind then moveUp ⟨above, ⟨next.kind, next.lines ++ here.lines⟩, below⟩
    else moveUp ⟨above, here, next :: below⟩
  termination_by place => room place.above
  decreasing_by
    · have bound := tradesUp_le next.lines here
      have rest := room_ofLines .keep (next.lines.take (next.lines.length - tradesUp next.lines here))
      simp only [List.length_take] at rest
      simp only [room_cons, room_append]
      omega
    all_goals
      simp only [room_cons]
      omega

/-- Move an addition or removal down as far as it goes. An addition trades places with kept lines
that it begins with; changes of one kind become one. -/
def moveDown : Place → Place
  | ⟨above, here, []⟩ => ⟨above, here, []⟩
  | ⟨above, here, next :: below⟩ =>
    if next.kind = .keep then
      let traded := tradesDown next.lines here
      if traded = 0 then ⟨above, here, next :: below⟩
      else
        let kept := next.lines.take traded
        moveDown {
          above := keepAfter kept above
          here := ⟨.add, here.lines.drop traded ++ kept⟩
          below := ofLines .keep (next.lines.drop traded) ++ below }
    else if next.kind = here.kind then
      moveDown ⟨above, ⟨next.kind, here.lines ++ next.lines⟩, below⟩
    else moveDown ⟨next :: above, here, below⟩
  termination_by place => room place.below
  decreasing_by
    · have bound := tradesDown_le next.lines here
      have rest := room_ofLines .keep (next.lines.drop (tradesDown next.lines here))
      simp only [List.length_drop] at rest
      simp only [room_cons, room_append]
      omega
    all_goals
      simp only [room_cons]
      omega

end Place

/-- Move the changes of one kind, from the first to the last, at most `turns` of them. -/
def gather (kind : ChangeKind) : Nat → List Change → List Change → List Change
  | 0, above, below => above.reverse ++ below
  | _, above, [] => above.reverse
  | turns + 1, above, here :: below =>
    if here.kind = kind then
      let place := (Place.mk above here below).moveUp.moveDown
      gather kind turns (place.here :: place.above) place.below
    else gather kind turns (here :: above) below

/-- The lines of some changes with what becomes of each: between kept lines, what is `removed` comes
before what is `added`. -/
def arrange (removed added : List Text) : List Change → List (ChangeKind × Text)
  | [] => removed.map (.remove, ·) ++ added.map (.add, ·)
  | ⟨.keep, lines⟩ :: rest =>
    removed.map (.remove, ·) ++ added.map (.add, ·) ++ lines.map (.keep, ·) ++ arrange [] [] rest
  | ⟨.remove, lines⟩ :: rest => arrange (removed ++ lines) added rest
  | ⟨.add, lines⟩ :: rest => arrange removed (added ++ lines) rest

end Change

/-- The line difference of two texts: every line of either, with what becomes of it. -/
def lineDiff (old new : Text) : List (ChangeKind × Text) :=
  let oldLines := old.lines
  let newLines := new.lines
  let changes := Change.between (oldLines.length + newLines.length) oldLines newLines
  let removalsMoved := Change.gather .remove (Change.room changes) [] changes
  let settled := Change.gather .add (Change.room removalsMoved) [] removalsMoved
  Change.arrange [] [] settled

end Stencil
