import Stencil.Document.Segment
import Stencil.Proofs.Document.Location
import Stencil.Proofs.Document.MarkerLine
import Stencil.Proofs.Marker.Tag

/-!
# Documents behind whole lines

Whole lines in front of a document move everything that is read behind them: positions by the
length of the lines and line numbers by their count. Where the lines themselves hold nothing that
could begin a block, reading from the very start finds the same blocks.
-/

namespace Stencil

open Text

/-- The error with its line, if it has one, moved down. -/
def Error.shift (lines : Nat) : Error → Error
  | unclosedBlock tag line => unclosedBlock tag (lines + line)
  | invalidMarker tag line reason => invalidMarker tag (lines + line) reason
  | unmatchedQuote line => unmatchedQuote (lines + line)
  | fieldCount line expected got => fieldCount (lines + line) expected got
  | emptyColumn line => emptyColumn (lines + line)
  | file fault => file fault
  | config fault => config fault
  | outputConflict output => outputConflict output

/-- The result with its value changed, or with its error moved down. -/
def shiftResult {α β : Type} (lines : Nat) (change : α → β) : Except Error α → Except Error β
  | .ok value => .ok (change value)
  | .error fault => .error (fault.shift lines)

@[simp] theorem shiftResult_ok {α β : Type} (lines : Nat) (change : α → β) (value : α) :
    shiftResult lines change (.ok value) = .ok (change value) := rfl

@[simp] theorem shiftResult_error {α β : Type} (lines : Nat) (change : α → β) (fault : Error) :
    shiftResult lines change (.error fault) = .error (fault.shift lines) := rfl

/-- The region with its lines moved down. -/
def Region.shift (lines : Nat) (region : Region) : Region :=
  { region with
    openingLine := lines + region.openingLine
    bodyLine := lines + region.bodyLine
    closingLine := lines + region.closingLine }

/-- The segment with its lines moved down. -/
def Segment.shift (lines : Nat) : Segment → Segment
  | plain text => plain text
  | tagged region => tagged (region.shift lines)

/-- The segments with a text put in front of the first plain text. -/
def Segment.prepend (front : Text) : List Segment → List Segment
  | .plain text :: rest => .plain (front ++ text) :: rest
  | segments => segments

/-- A text in front moves the lines of a text down by its line feeds. -/
theorem LineTable.line_ofText_append_add (front text : Text) (position : Nat) :
    (ofText (front ++ text)).line (front.length + position) =
      front.count '\n' + (ofText text).line position :=
  line_append_add '\n' front text position

namespace Block

/-- The block at positions that are larger by `shift`. -/
def moved (shift : Nat) (block : Block) : Block :=
  { block with
    opening := ⟨shift + block.opening.start, shift + block.opening.stop⟩
    body := ⟨shift + block.body.start, shift + block.body.stop⟩
    closing := ⟨shift + block.closing.start, shift + block.closing.stop⟩
    resume := shift + block.resume }

theorem moved_inside {front text : Text} {block : Block} (h : block.resume ≤ text.length) :
    (block.moved front.length).resume ≤ (front ++ text).length := by
  rw [List.length_append]
  exact Nat.add_le_add_left h front.length

/-- The candidate at a position that is larger by `shift`. -/
def Candidate.moved (shift : Nat) (candidate : Candidate) : Candidate :=
  ⟨candidate.comment.moved shift, candidate.attributes⟩

/-! ## Searches behind a front -/

theorem of?_moved (tag : Text) (shift : Nat) (comment : Comment) :
    Candidate.of? tag (comment.moved shift) =
      (Candidate.of? tag comment).map (Candidate.moved shift) := by
  rw [Candidate.of?, Candidate.of?, Comment.moved_text]
  split <;> rfl

/-- A search behind a front finds what it finds without the front. -/
theorem firstCandidate_append_add (front text tag : Text) (start : Nat) (style : Style) :
    firstCandidate (front ++ text) tag (front.length + start) style =
      (firstCandidate text tag start style).map (Candidate.moved front.length) := by
  rw [firstCandidate, firstCandidate, Comment.scan_append_add, List.findSome?_map,
    List.map_findSome?]
  congr 1
  funext comment
  exact of?_moved tag front.length comment

theorem earlier_map_moved (shift : Nat) (line block : Option Candidate) :
    earlier (line.map (Candidate.moved shift)) (block.map (Candidate.moved shift)) =
      (earlier line block).map (Candidate.moved shift) := by
  cases line with
  | none => rfl
  | some line =>
    cases block with
    | none => rfl
    | some block =>
      simp only [earlier, Option.map_some, Candidate.moved, Comment.moved_start,
        Nat.add_lt_add_iff_left]
      split <;> rfl

theorem find?_isClosing_append_add (front text tag : Text) (start : Nat) (style : Style) :
    (Comment.scan (front ++ text) (front.length + start) style).find? (isClosing tag) =
      ((Comment.scan text start style).find? (isClosing tag)).map (Comment.moved front.length) := by
  rw [Comment.scan_append_add, List.find?_map]
  rfl

theorem afterMarker_append_add (front text : Text) (stop : Nat) :
    afterMarker (front ++ text) (front.length + stop) = front.length + afterMarker text stop := by
  rw [afterMarker, afterMarker, List.drop_length_add_append, Nat.add_assoc]

/-- Indentation is looked for within the same line, and from the same floor on. -/
theorem indentStart_append_add {front : Text} (text : Text) {floor floor' start : Nat}
    (hfront : EndsIn '\n' front) (hfloor : max front.length floor' = front.length + floor)
    (hstart : start ≤ text.length) :
    indentStart (front ++ text) (LineTable.ofText (front ++ text)) floor' (front.length + start) =
      front.length + indentStart text (LineTable.ofText text) floor start := by
  have hline : (LineTable.ofText (front ++ text)).lineStart (front.length + start) =
      front.length + (LineTable.ofText text).lineStart start :=
    LineTable.lineStart_append_add hfront hstart
  have hmax : max (front.length + (LineTable.ofText text).lineStart start) floor' =
      front.length + max ((LineTable.ofText text).lineStart start) floor := by omega
  rw [indentStart, indentStart, hline, hmax, slice_append_add]
  simp only [Nat.add_le_add_iff_left]
  split <;> rfl

/-- Whole lines in front move what is located behind them. -/
theorem locateFrom_append_add {front : Text} (text tag : Text) {floor floor' start : Nat}
    (hfront : EndsIn '\n' front) (hfloor : max front.length floor' = front.length + floor) :
    locateFrom (front ++ text) tag (LineTable.ofText (front ++ text)) floor'
        (front.length + start) =
      shiftResult (front.count '\n') (Option.map (moved front.length))
        (locateFrom text tag (LineTable.ofText text) floor start) := by
  simp only [locateFrom, firstCandidate_append_add, earlier_map_moved]
  cases hearlier : earlier (firstCandidate text tag start .line)
      (firstCandidate text tag start .block) with
  | none => rfl
  | some candidate =>
    obtain ⟨opening, attributes⟩ := candidate
    have hopening : opening.stop ≤ text.length := by
      rcases earlier_eq_some hearlier with hfirst | hfirst <;>
        exact (Comment.scan_range (firstCandidate_mem hfirst)).2.2
    have hstart := opening.content_within
    simp only [Option.map_some, Candidate.moved, Comment.moved_start, Comment.moved_stop,
      Comment.moved_style, LineTable.line_ofText_append_add, find?_isClosing_append_add]
    cases attributes with
    | error reason => rfl
    | ok attributes =>
      simp only
      cases hfind : (Comment.scan text opening.stop opening.style).find? (isClosing tag) with
      | none => rfl
      | some closing =>
        have hclosing := (Comment.scan_range (List.mem_of_find?_eq_some hfind)).2.2
        have hclosingStart := closing.content_within
        have hbody : max front.length (front.length + afterMarker text opening.stop) =
            front.length + afterMarker text opening.stop := by omega
        simp only [Option.map_some, Comment.moved_start, Comment.moved_stop,
          afterMarker_append_add, shiftResult_ok]
        rw [indentStart_append_add text hfront hfloor (by omega),
          indentStart_append_add text hfront hbody (by omega)]
        rfl

/-! ## Searches from the start of a front -/

/-- A text without the beginning of an opening tag has no candidates. -/
theorem firstCandidate_of_not {text tag : Text} (start : Nat) (style : Style)
    (h : ¬ Marker.openingStart tag <:+: text) : firstCandidate text tag start style = none := by
  rw [firstCandidate_eq_none_iff]
  rintro comment hmem ⟨result, hresult⟩
  apply h
  exact (Marker.openingStart_isPrefix hresult).isInfix.trans (Comment.text_isInfix_of_mem_scan hmem)

/-- Nothing is located in a text without the beginning of an opening tag. -/
theorem locateFrom_of_not {text tag : Text} (lines : LineTable) (floor start : Nat)
    (h : ¬ Marker.openingStart tag <:+: text) :
    locateFrom text tag lines floor start = .ok none := by
  simp only [locateFrom, firstCandidate_of_not start _ h, earlier]

/-- A search passes over whole lines in which nothing can begin a block. -/
theorem firstCandidate_append {front tag : Text} (text : Text) (style : Style)
    (hfront : EndsIn '\n' front) (hmark : ¬ Style.block.mark <:+: front)
    (hopening : ¬ Marker.openingStart tag <:+: front) :
    firstCandidate (front ++ text) tag 0 style =
      firstCandidate (front ++ text) tag front.length style := by
  have hnone := firstCandidate_of_not 0 style hopening
  rw [firstCandidate] at hnone
  rw [firstCandidate, Comment.scan_append text hfront fun _ => hmark, List.findSome?_append, hnone,
    Option.none_or]
  rfl

/-- Whole lines in which nothing can begin a block move what is located from the start. -/
theorem locateFrom_append {front tag : Text} (text : Text) (hfront : EndsIn '\n' front)
    (hmark : ¬ Style.block.mark <:+: front) (hopening : ¬ Marker.openingStart tag <:+: front) :
    locateFrom (front ++ text) tag (LineTable.ofText (front ++ text)) 0 0 =
      shiftResult (front.count '\n') (Option.map (moved front.length))
        (locateFrom text tag (LineTable.ofText text) 0 0) := by
  have hskip : locateFrom (front ++ text) tag (LineTable.ofText (front ++ text)) 0 0 =
      locateFrom (front ++ text) tag (LineTable.ofText (front ++ text)) 0 front.length := by
    simp only [locateFrom, firstCandidate_append text _ hfront hmark hopening]
  rw [hskip]
  exact @locateFrom_append_add front text tag 0 0 0 hfront (by omega)

end Block

/-! ## Readings -/

/-- The region of a moved block is the region with its lines moved down. -/
theorem Region.ofBlock_moved (front text : Text) (block : Block) :
    ofBlock (front ++ text) (LineTable.ofText (front ++ text)) (block.moved front.length) =
      (ofBlock text (LineTable.ofText text) block).shift (front.count '\n') := by
  simp only [ofBlock, Block.moved, shift, LineTable.line_ofText_append_add, slice_append_add]

namespace Reading

/-- The reading with its lines moved down. -/
def shift (lines : Nat) (reading : Reading) : Reading :=
  ⟨reading.segments.map (Segment.shift lines), reading.fault.map (Error.shift lines)⟩

/-- Whole lines in front only move the lines of what is read behind them. -/
theorem ofRest_append_add {front : Text} (text tag : Text) (hfront : EndsIn '\n' front)
    {start : Nat} (inside : start ≤ text.length)
    (inside' : front.length + start ≤ (front ++ text).length) :
    ofRest (front ++ text) tag (LineTable.ofText (front ++ text)) (front.length + start) inside' =
      (ofRest text tag (LineTable.ofText text) start inside).shift (front.count '\n') := by
  have hshift : ∀ start, Block.locateFrom (front ++ text) tag (LineTable.ofText (front ++ text))
      (front.length + start) (front.length + start) =
        shiftResult (front.count '\n') (Option.map (Block.moved front.length))
          (Block.locateFrom text tag (LineTable.ofText text) start start) := by
    intro start
    exact @Block.locateFrom_append_add front text tag start _ start hfront (by omega)
  induction start, inside using ofRest.induct text tag (LineTable.ofText text) with
  | case1 start inside fault hlocate =>
    have hboth := hshift start
    rw [hlocate] at hboth
    rw [ofRest_of_error inside hlocate, ofRest_of_error inside' hboth]
    rfl
  | case2 start inside hlocate =>
    have hboth := hshift start
    rw [hlocate] at hboth
    rw [ofRest_of_none inside hlocate, ofRest_of_none inside' hboth, List.drop_length_add_append]
    rfl
  | case3 start inside block hlocate ih =>
    have hboth := hshift start
    rw [hlocate] at hboth
    obtain ⟨-, hresume⟩ := Block.locateFrom_resume inside hlocate
    have hresume' := @Block.moved_inside front text block hresume
    have hrest : ofRest (front ++ text) tag (LineTable.ofText (front ++ text))
        (block.moved front.length).resume hresume' =
          (ofRest text tag (LineTable.ofText text) block.resume hresume).shift
            (front.count '\n') :=
      ih hresume'
    have hplain : (front ++ text).slice
        ⟨front.length + start, (block.moved front.length).opening.start⟩ =
          text.slice ⟨start, block.opening.start⟩ := slice_append_add _ _ _ _
    rw [ofRest_of_some inside hlocate hresume, ofRest_of_some inside' hboth hresume', hrest,
      hplain, Region.ofBlock_moved]
    rfl

/-- Whole lines in which nothing can begin a block become part of the first plain text, and what is
read behind them is moved down. -/
theorem ofText_append {front tag : Text} (text : Text) (hfront : EndsIn '\n' front)
    (hmark : ¬ Style.block.mark <:+: front) (hopening : ¬ Marker.openingStart tag <:+: front) :
    ofText (front ++ text) tag =
      ⟨Segment.prepend front ((ofText text tag).shift (front.count '\n')).segments,
        ((ofText text tag).shift (front.count '\n')).fault⟩ := by
  have hboth := Block.locateFrom_append text hfront hmark hopening
  rw [ofText, ofText]
  cases hlocate : Block.locateFrom text tag (LineTable.ofText text) 0 0 with
  | error fault =>
    rw [hlocate] at hboth
    rw [ofRest_of_error _ hlocate, ofRest_of_error _ hboth]
    rfl
  | ok found =>
    rw [hlocate] at hboth
    cases found with
    | none =>
      rw [ofRest_of_none _ hlocate, ofRest_of_none _ hboth]
      rfl
    | some block =>
      obtain ⟨-, hresume⟩ := Block.locateFrom_resume (Nat.zero_le _) hlocate
      have hresume' := @Block.moved_inside front text block hresume
      have hrest : ofRest (front ++ text) tag (LineTable.ofText (front ++ text))
          (block.moved front.length).resume hresume' =
            (ofRest text tag (LineTable.ofText text) block.resume hresume).shift
              (front.count '\n') :=
        ofRest_append_add text tag hfront hresume hresume'
      have hplain : (front ++ text).slice ⟨0, (block.moved front.length).opening.start⟩ =
          front ++ text.slice ⟨0, block.opening.start⟩ := by
        simp only [slice, Block.moved, List.drop_zero, Nat.sub_zero, List.take_length_add_append]
      rw [ofRest_of_some _ hlocate hresume, ofRest_of_some _ hboth hresume', hrest, hplain,
        Region.ofBlock_moved]
      rfl

/-- A text that could not begin a block is plain. -/
theorem ofText_of_not {text tag : Text} (h : ¬ Marker.openingStart tag <:+: text) :
    ofText text tag = ⟨[.plain text], none⟩ := by
  rw [ofText, ofRest_of_none _ (Block.locateFrom_of_not _ 0 0 h), List.drop_zero]

end Reading

end Stencil
