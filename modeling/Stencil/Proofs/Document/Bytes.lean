import Stencil.Proofs.Comment.ByteScan
import Stencil.Proofs.Document.MarkerBytes
import Stencil.Proofs.Document.Partition

/-!
# Documents read by bytes

Where documents are handed around as UTF-8 they are read by offsets: comments are scanned for among
the bytes, their contents, the plain texts and the bodies are cut out of the text, and the ranges of
a block are computed from both. Each of these steps can fail, by a range that does not lie inside or
that cuts a character, or by a search that does not move on. None of them ever does, and what is
read is what reading by positions yields.
-/

namespace Stencil

open Text

/-- The block with the byte offsets of its positions. -/
def Block.inBytes (text : Text) (block : Block) : Block :=
  { block with
    opening := ⟨offsetOf text block.opening.start, offsetOf text block.opening.stop⟩
    body := ⟨offsetOf text block.body.start, offsetOf text block.body.stop⟩
    closing := ⟨offsetOf text block.closing.start, offsetOf text block.closing.stop⟩
    resume := offsetOf text block.resume }

namespace Bytes

/-- A comment among bytes, with its content. -/
structure Found where
  style : Style
  span : Span
  text : Text

/-- A comment that opens a block, or would if its tag were well formed. -/
structure Opening where
  comment : Found
  attributes : Except MarkerError Attributes

/-- The comments of a style at or after an offset, each with the text cut out at its content. -/
def readComments? (style : Style) (bytes : List UInt8) (offset : Nat) : Option (List Found) := do
  let comments ← scan? style bytes offset
  comments.mapM fun comment => do
    let text ← cut? bytes comment.content
    return ⟨style, comment.span, text⟩

/-- What a comment is as an opening of a block for `tag`. -/
def Opening.of? (tag : Text) (comment : Found) : Option Opening :=
  match Marker.read tag comment.text with
  | .ok (some (.opening attributes)) => some ⟨comment, .ok attributes⟩
  | .ok _ => none
  | .error fault => some ⟨comment, .error fault⟩

/-- The earlier of two openings; none is later than any. -/
def earlier : Option Opening → Option Opening → Option Opening
  | some line, some block =>
    if block.comment.span.start < line.comment.span.start then some block else some line
  | some line, none => some line
  | none, block => block

/-- Whether a comment closes a block for `tag`. -/
def isClosing (tag : Text) (comment : Found) : Bool :=
  match Marker.read tag comment.text with
  | .ok (some .closing) => true
  | _ => false

/-- The block that an opening and a closing comment delimit. -/
def between? (bytes : List UInt8) (lines : LineTable) (floor : Nat) (attributes : Attributes)
    (opening closing : Found) : Option Block := do
  let openingStart ← indentStart? bytes lines floor opening.span.start
  let bodyStart ← afterMarker? bytes opening.span.stop
  let closingStart ← indentStart? bytes lines bodyStart closing.span.start
  let resume ← afterMarker? bytes closing.span.stop
  return {
    style := opening.style
    attributes
    opening := ⟨openingStart, opening.span.stop⟩
    body := ⟨bodyStart, closingStart⟩
    closing := ⟨closingStart, closing.span.stop⟩
    resume }

/-- The first block at or after an offset. -/
def locate? (bytes : List UInt8) (tag : Text) (lines : LineTable) (offset : Nat) :
    Option (Except Error (Option Block)) := do
  let lineComments ← readComments? .line bytes offset
  let blockComments ← readComments? .block bytes offset
  match earlier (lineComments.findSome? (Opening.of? tag))
      (blockComments.findSome? (Opening.of? tag)) with
  | none => return .ok none
  | some ⟨opening, attributes⟩ =>
    let number := lines.line opening.span.start
    match attributes with
    | .error reason => return .error (.invalidMarker tag number reason)
    | .ok attributes =>
      let comments ← readComments? opening.style bytes opening.span.stop
      match comments.find? (isClosing tag) with
      | none => return .error (.unclosedBlock tag number)
      | some closing =>
        let block ← between? bytes lines offset attributes opening closing
        return .ok (some block)

/-- The region of a located block. -/
def region? (bytes : List UInt8) (lines : LineTable) (block : Block) : Option Region := do
  let body ← cut? bytes block.body
  return {
    style := block.style
    attributes := block.attributes
    body
    openingLine := lines.line block.opening.start
    bodyLine := lines.line block.body.start
    closingLine := lines.line block.closing.start }

/-- Read the part of a document that begins at the offset `cursor`. A block that does not move the
cursor forward fails. -/
def parseFrom? (bytes : List UInt8) (tag : Text) (lines : LineTable) (cursor : Nat) :
    Option (Except Error (List Segment)) :=
  match locate? bytes tag lines cursor with
  | none => none
  | some (.error fault) => some (.error fault)
  | some (.ok none) => (cut? bytes ⟨cursor, bytes.length⟩).map fun rest => .ok [.plain rest]
  | some (.ok (some block)) =>
    if cursor < block.resume ∧ block.resume ≤ bytes.length then do
      let plain ← cut? bytes ⟨cursor, block.opening.start⟩
      let region ← region? bytes lines block
      let rest ← parseFrom? bytes tag lines block.resume
      return rest.map fun segments => .plain plain :: .tagged region :: segments
    else none
  termination_by bytes.length - cursor

/-- The segments of the bytes of a document. -/
def parse? (bytes : List UInt8) (tag : Text) : Option (Except Error (List Segment)) :=
  parseFrom? bytes tag (LineTable.ofUnits 10 bytes) 0

/-! ## Comments -/

theorem mapM_eq_some_map {α β : Type} {items : List α} {f : α → Option β} {g : α → β}
    (h : ∀ item ∈ items, f item = some (g item)) : items.mapM f = some (items.map g) := by
  induction items with
  | nil => rfl
  | cons item rest ih =>
    obtain ⟨hitem, hrest⟩ := List.forall_mem_cons.mp h
    simp only [List.mapM_cons, hitem, ih hrest, Option.bind_eq_bind, Option.bind_some,
      Option.pure_def, List.map_cons]

/-- A comment of a text, by its bytes. -/
def Found.ofComment (text : Text) (comment : Comment) : Found :=
  ⟨comment.style, (Comment.byteRanges text comment).span, comment.text⟩

@[simp] theorem Found.style_ofComment (text : Text) (comment : Comment) :
    (ofComment text comment).style = comment.style := rfl

@[simp] theorem Found.span_ofComment (text : Text) (comment : Comment) :
    (ofComment text comment).span = ⟨offsetOf text comment.start, offsetOf text comment.stop⟩ := rfl

@[simp] theorem Found.text_ofComment (text : Text) (comment : Comment) :
    (ofComment text comment).text = comment.text := rfl

/-- The content of every comment of a text is cut out. -/
theorem readComments?_utf8 (style : Style) (text : Text) (offset : Nat) :
    readComments? style (utf8 text) offset =
      some ((Comment.scanAt text offset style).map (Found.ofComment text)) := by
  simp only [readComments?, scan?_utf8, Option.bind_eq_bind, Option.bind_some, List.mapM_map]
  refine mapM_eq_some_map fun comment hmem => ?_
  obtain ⟨hcontent, hstop⟩ := Comment.slice_content hmem
  have hcut := cut?_offsetOf comment.content_within.2.1 hstop
  rw [hcontent] at hcut
  simp only [Function.comp_apply, Comment.byteRanges, hcut, Option.bind_some, Option.pure_def,
    Found.ofComment, Comment.style_of_mem_scan hmem]

/-! ## Blocks -/

def Opening.ofCandidate (text : Text) (candidate : Block.Candidate) : Opening :=
  ⟨Found.ofComment text candidate.comment, candidate.attributes⟩

variable {text tag : Text}

theorem findSome?_of? (text tag : Text) (comments : List Comment) :
    (comments.map (Found.ofComment text)).findSome? (Opening.of? tag) =
      (comments.findSome? (Block.Candidate.of? tag)).map (Opening.ofCandidate text) := by
  have hof : Opening.of? tag ∘ Found.ofComment text =
      Option.map (Opening.ofCandidate text) ∘ Block.Candidate.of? tag := by
    funext comment
    simp only [Function.comp_apply, Opening.of?, Found.text_ofComment, Block.Candidate.of?]
    generalize Marker.read tag comment.text = result
    rcases result with fault | _ | (attributes | _) <;> rfl
  rw [List.findSome?_map, List.map_findSome?, hof]

theorem find?_isClosing (text tag : Text) (comments : List Comment) :
    (comments.map (Found.ofComment text)).find? (isClosing tag) =
      (comments.find? (Block.isClosing tag)).map (Found.ofComment text) :=
  List.find?_map

theorem earlier_map {line block : Option Block.Candidate}
    (hline : ∀ candidate ∈ line, candidate.comment.start ≤ text.length) :
    earlier (line.map (Opening.ofCandidate text)) (block.map (Opening.ofCandidate text)) =
      (Block.earlier line block).map (Opening.ofCandidate text) := by
  cases line with
  | none => cases block <;> rfl
  | some line =>
    cases block with
    | none => rfl
    | some block =>
      have hlt : offsetOf text block.comment.start < offsetOf text line.comment.start ↔
          block.comment.start < line.comment.start := by
        rw [← Nat.not_le, offsetOf_le_offsetOf_iff (hline line rfl), Nat.not_le]
      simp only [Option.map_some, earlier, Block.earlier, Opening.ofCandidate, Found.span_ofComment,
        hlt]
      split <;> rfl

/-- What is located between two comments lies at the offsets of its positions. -/
theorem between?_utf8 {offset : Nat} {opening closing : Comment} (attributes : Attributes)
    (hoffset : offset ≤ byteSize text) (hafter : positionAfter offset text ≤ opening.start)
    (hlength : opening.start ≤ opening.stop) (hopening : opening.stop ≤ text.length)
    (hstart : closing.start ≤ closing.stop) (hclosing : closing.stop ≤ text.length) :
    between? (utf8 text) (LineTable.ofUnits 10 (utf8 text)) offset attributes
        (.ofComment text opening) (.ofComment text closing) =
      some ((Block.between text (LineTable.ofText text) (positionWithin offset text) attributes
        opening closing).inBytes text) := by
  have hrest := Block.lineRest_le (text.drop opening.stop)
  have hbody : Block.afterMarker text opening.stop ≤ text.length := by
    rw [List.length_drop] at hrest
    rw [Block.afterMarker]
    omega
  simp only [between?, Found.span_ofComment, indentStart?_utf8 hoffset hafter (by omega),
    afterMarker?_offsetOf hopening, indentStart?_offsetOf hbody (Nat.le_trans hstart hclosing),
    afterMarker?_offsetOf hclosing, Option.bind_eq_bind, Option.bind_some, Option.pure_def]
  rfl

/-- The candidates of a scan lie behind its start and in the text. -/
theorem firstCandidate_range {offset : Nat} {style : Style} {candidate : Block.Candidate}
    (h : Block.firstCandidate text tag (positionAfter offset text) style = some candidate) :
    positionAfter offset text ≤ candidate.comment.start ∧
      candidate.comment.start ≤ candidate.comment.stop ∧
      candidate.comment.stop ≤ text.length := by
  have hrange := Comment.scan_range (Block.firstCandidate_mem h)
  rw [Nat.min_eq_left (positionAfter_le_length offset text)] at hrange
  omega

/-- The first openings of both styles are those of the text, and so is the earlier one. -/
theorem earlier_utf8 (text tag : Text) (offset : Nat) :
    earlier
        (((Comment.scanAt text offset .line).map (Found.ofComment text)).findSome?
          (Opening.of? tag))
        (((Comment.scanAt text offset .block).map (Found.ofComment text)).findSome?
          (Opening.of? tag)) =
      (Block.earlier (Block.firstCandidate text tag (positionAfter offset text) .line)
        (Block.firstCandidate text tag (positionAfter offset text) .block)).map
          (Opening.ofCandidate text) := by
  rw [findSome?_of?, findSome?_of?]
  refine earlier_map fun candidate hcandidate => ?_
  obtain ⟨-, hle, hstop⟩ := firstCandidate_range hcandidate
  exact Nat.le_trans hle hstop

/-- Locating among the bytes of a text succeeds, and finds the block that is located in the text, at
the offsets of its positions. -/
theorem locate?_utf8 {offset : Nat} (hoffset : offset ≤ byteSize text) :
    locate? (utf8 text) tag (LineTable.ofUnits 10 (utf8 text)) offset =
      some ((Block.locate text tag offset).map (Option.map (Block.inBytes text))) := by
  simp only [locate?, readComments?_utf8, Option.bind_eq_bind, Option.bind_some, earlier_utf8,
    Block.locate, Block.locateFrom]
  cases hfirst : Block.earlier (Block.firstCandidate text tag (positionAfter offset text) .line)
      (Block.firstCandidate text tag (positionAfter offset text) .block) with
  | none => rfl
  | some candidate =>
    obtain ⟨opening, attributes⟩ := candidate
    have hopening : positionAfter offset text ≤ opening.start ∧ opening.start ≤ opening.stop ∧
        opening.stop ≤ text.length := by
      rcases Block.earlier_eq_some hfirst with h | h <;> exact firstCandidate_range h
    obtain ⟨hafter, hle, hstop⟩ := hopening
    have hscan : Comment.scanAt text (offsetOf text opening.stop) opening.style =
        Comment.scan text opening.stop opening.style := by
      rw [Comment.scanAt, positionAfter_offsetOf hstop]
    cases attributes with
    | error reason =>
      simp only [Option.map_some, Opening.ofCandidate, Found.span_ofComment,
        LineTable.line_offsetOf]
      rfl
    | ok attributes =>
      simp only [Option.map_some, Opening.ofCandidate, Found.span_ofComment, Found.style_ofComment,
        LineTable.line_offsetOf, hscan, find?_isClosing]
      cases hclose : (Comment.scan text opening.stop opening.style).find? (Block.isClosing tag) with
      | none => rfl
      | some closing =>
        have hclosing := Comment.scan_range (List.mem_of_find?_eq_some hclose)
        have hbetween := between?_utf8 attributes hoffset hafter hle hstop
          (by omega : closing.start ≤ closing.stop) hclosing.2.2
        simp only [Option.map_some, hbetween, Option.bind_some]
        rfl

/-! ## Documents -/

/-- The body of a block is cut out. -/
theorem region?_utf8 {block : Block} (hle : block.body.start ≤ block.body.stop)
    (hstop : block.body.stop ≤ text.length) :
    region? (utf8 text) (LineTable.ofUnits 10 (utf8 text)) (block.inBytes text) =
      some (Region.ofBlock text (LineTable.ofText text) block) := by
  simp only [region?, Block.inBytes, cut?_offsetOf hle hstop, LineTable.line_offsetOf,
    Option.bind_eq_bind, Option.bind_some, Option.pure_def]
  rfl

theorem toExcept_append (before : List Segment) (rest : Reading) :
    Reading.toExcept ⟨before ++ rest.segments, rest.fault⟩ =
      rest.toExcept.map (before ++ ·) := by
  simp only [Reading.toExcept]
  cases rest.fault <;> rfl

/-- Reading from the offset of a position succeeds and yields what reading from there does. -/
theorem parseFrom?_utf8 {start : Nat} (inside : start ≤ text.length) :
    parseFrom? (utf8 text) tag (LineTable.ofUnits 10 (utf8 text)) (offsetOf text start) =
      some (Reading.ofRest text tag (LineTable.ofText text) start inside).toExcept := by
  induction start, inside using Reading.ofRest.induct text tag (LineTable.ofText text) with
  | case1 start inside fault hlocate =>
    rw [Reading.ofRest_of_error inside hlocate]
    rw [Block.locateFrom_eq_locate tag inside] at hlocate
    rw [parseFrom?, locate?_utf8 (offsetOf_le_byteSize text start), hlocate]
    rfl
  | case2 start inside hlocate =>
    rw [Reading.ofRest_of_none inside hlocate]
    rw [Block.locateFrom_eq_locate tag inside] at hlocate
    rw [parseFrom?, locate?_utf8 (offsetOf_le_byteSize text start), hlocate]
    exact congrArg (Option.map _) (cut?_rest text start)
  | case3 start inside block hlocate ih =>
    obtain ⟨hlt, inside'⟩ := Block.locateFrom_resume inside hlocate
    rw [Reading.ofRest_of_some inside hlocate inside']
    rw [Block.locateFrom_eq_locate tag inside] at hlocate
    obtain ⟨hstart, hopening, hbody, hstop⟩ := Block.range_of_locate hlocate
    rw [positionAfter_offsetOf inside] at hstart
    have hprogress : offsetOf text start < offsetOf text block.resume ∧
        offsetOf text block.resume ≤ (utf8 text).length := by
      rw [length_utf8]
      exact ⟨offsetOf_lt_offsetOf hlt inside', offsetOf_le_byteSize text _⟩
    have hplain : cut? (utf8 text) ⟨offsetOf text start, (block.inBytes text).opening.start⟩ =
        some (text.slice ⟨start, block.opening.start⟩) :=
      @cut?_offsetOf text ⟨start, block.opening.start⟩ hstart hopening
    have hrest : parseFrom? (utf8 text) tag (LineTable.ofUnits 10 (utf8 text))
        (block.inBytes text).resume = _ := ih
    rw [parseFrom?, locate?_utf8 (offsetOf_le_byteSize text start), hlocate]
    refine (if_pos hprogress).trans ?_
    simp only [hplain, region?_utf8 hbody hstop, hrest, Option.bind_eq_bind, Option.bind_some,
      Option.pure_def]
    exact congrArg some (toExcept_append [.plain _, .tagged _] _).symm

/-- Reading the bytes of a document succeeds, and yields what reading the document does. -/
theorem parse?_utf8 (text tag : Text) : parse? (utf8 text) tag = some (parse text tag) :=
  parseFrom?_utf8 (Nat.zero_le text.length)

end Bytes

/-- The text in front of a block and its body are cut out at the offsets that are found. -/
theorem Block.cut?_of_locate {text tag : Text} {offset : Nat} {block : Block}
    (h : locate text tag offset = .ok (some block)) :
    Bytes.cut? (utf8 text)
        ⟨offsetOf text (positionAfter offset text), (block.inBytes text).opening.start⟩ =
      some (text.slice ⟨positionAfter offset text, block.opening.start⟩) ∧
    Bytes.cut? (utf8 text) (block.inBytes text).body = some (text.slice block.body) := by
  obtain ⟨hstart, hopening, hbody, hstop⟩ := range_of_locate h
  exact ⟨@Bytes.cut?_offsetOf text ⟨_, _⟩ hstart hopening, Bytes.cut?_offsetOf hbody hstop⟩

/-- Reading loses no text and takes none twice: the segments of a document compose it. Read by its
bytes, the document yields the same, and nothing is cut out of it outside its bounds or inside a
character, wherever comments are scanned for and blocks are searched. And wherever a search begins,
the ranges of the block that is found follow one another from there on. -/
theorem composes_parse (text tag : Text) :
    (∀ segments, parse text tag = .ok segments → Composes tag text segments) ∧
      Bytes.parse? (utf8 text) tag = some (parse text tag) ∧
      ∀ offset, offset ≤ byteSize text →
        (∀ style, Bytes.readComments? style (utf8 text) offset =
          some ((Comment.scanAt text offset style).map (Bytes.Found.ofComment text))) ∧
        Bytes.locate? (utf8 text) tag (LineTable.ofUnits 10 (utf8 text)) offset =
          some ((Block.locate text tag offset).map (Option.map (Block.inBytes text))) ∧
        ∀ block, Block.locate text tag offset = .ok (some block) →
          Block.Advances text offset block ∧
            Bytes.cut? (utf8 text)
                ⟨offsetOf text (positionAfter offset text), (block.inBytes text).opening.start⟩ =
              some (text.slice ⟨positionAfter offset text, block.opening.start⟩) ∧
            Bytes.cut? (utf8 text) (block.inBytes text).body = some (text.slice block.body) := by
  refine ⟨fun segments => composes_of_parse, Bytes.parse?_utf8 text tag, fun offset hoffset => ?_⟩
  refine ⟨fun style => Bytes.readComments?_utf8 style text offset, Bytes.locate?_utf8 hoffset, ?_⟩
  intro block h
  exact ⟨Block.advances_of_locate hoffset h, Block.cut?_of_locate h⟩

end Stencil
