import Stencil.Proofs.Document.Partition

/-!
# The searches of a reading

A document is read by one search after the other, each from behind the block that the last one
found. A reading ends in a fault that its last search met, and every region is what one of the
searches found.
-/

namespace Stencil.Reading

open Text

/-- The reading searches for a block from the position `start` once it has read the segments
`before`. -/
inductive Searches (text tag : Text) : List Segment → Nat → Prop
  | start : Searches text tag [] 0
  | next {before : List Segment} {start : Nat} {block : Block} (h : Searches text tag before start)
      (hlocate : Block.locate text tag (offsetOf text start) = .ok (some block)) :
      Searches text tag
        (before ++ [.plain (text.slice ⟨start, block.opening.start⟩),
          .tagged (Region.ofBlock text (LineTable.ofText text) block)])
        block.resume

variable {text tag : Text} {before : List Segment} {start : Nat}

/-- A reading fails with the fault of one of its searches. -/
theorem Searches.exists_of_fault (h : Searches text tag before start)
    (inside : start ≤ text.length) {fault : Error}
    (hfault : (ofRest text tag (LineTable.ofText text) start inside).fault = some fault) :
    ∃ found start, start ≤ text.length ∧ Searches text tag found start ∧
      Block.locate text tag (offsetOf text start) = .error fault := by
  induction start, inside using ofRest.induct text tag (LineTable.ofText text)
    generalizing before with
  | case1 start inside found hlocate =>
    rw [ofRest_of_error inside hlocate] at hfault
    obtain rfl : found = fault := Option.some.inj hfault
    rw [Block.locateFrom_eq_locate tag inside] at hlocate
    exact ⟨before, start, inside, h, hlocate⟩
  | case2 start inside hlocate =>
    rw [ofRest_of_none inside hlocate] at hfault
    exact absurd hfault (by simp)
  | case3 start inside block hlocate ih =>
    obtain ⟨-, inside'⟩ := Block.locateFrom_resume inside hlocate
    rw [ofRest_of_some inside hlocate inside'] at hfault
    rw [Block.locateFrom_eq_locate tag inside] at hlocate
    exact ih (h.next hlocate) hfault

/-- A document that cannot be read is at fault where one of its searches is. -/
theorem exists_searches_of_parse {text tag : Text} {fault : Error}
    (h : parse text tag = .error fault) :
    ∃ found start, start ≤ text.length ∧ Searches text tag found start ∧
      Block.locate text tag (offsetOf text start) = .error fault := by
  rw [parse, toExcept] at h
  cases hfault : (ofText text tag).fault with
  | none => simp [hfault] at h
  | some found =>
    rw [hfault] at h
    obtain rfl := Except.error.inj h
    exact Searches.start.exists_of_fault (Nat.zero_le _) hfault

/-- A region that is read was found by one of the searches, with segments in front of the region
that are read by then. -/
theorem Searches.exists_of_region (h : Searches text tag before start)
    (inside : start ≤ text.length) {earlier after : List Segment} {region : Region}
    (hregion : (ofRest text tag (LineTable.ofText text) start inside).segments =
      earlier ++ .tagged region :: after) :
    ∃ found start block, start ≤ text.length ∧ Searches text tag found start ∧
      Block.locate text tag (offsetOf text start) = .ok (some block) ∧
      region = Region.ofBlock text (LineTable.ofText text) block ∧ found <+: before ++ earlier := by
  induction start, inside using ofRest.induct text tag (LineTable.ofText text)
    generalizing before earlier with
  | case1 start inside fault hlocate =>
    rw [ofRest_of_error inside hlocate] at hregion
    exact absurd hregion (by simp)
  | case2 start inside hlocate =>
    rw [ofRest_of_none inside hlocate] at hregion
    cases earlier <;> simp at hregion
  | case3 start inside block hlocate ih =>
    obtain ⟨-, inside'⟩ := Block.locateFrom_resume inside hlocate
    rw [ofRest_of_some inside hlocate inside'] at hregion
    rw [Block.locateFrom_eq_locate tag inside] at hlocate
    -- The region is that of the block itself, or it is read behind the block.
    cases earlier with
    | nil => exact absurd hregion (by simp)
    | cons plain earlier =>
      cases earlier with
      | nil =>
        simp only [List.cons_append, List.nil_append, List.cons.injEq, Segment.tagged.injEq]
          at hregion
        obtain ⟨-, rfl, -⟩ := hregion
        exact ⟨before, start, block, inside, h, hlocate, rfl, List.prefix_append _ _⟩
      | cons tagged earlier =>
        simp only [List.cons_append, List.cons.injEq] at hregion
        obtain ⟨rfl, rfl, hrest⟩ := hregion
        simpa only [List.append_assoc, List.cons_append, List.nil_append] using
          ih (h.next hlocate) hrest

end Stencil.Reading
