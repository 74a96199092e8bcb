import Stencil.Document.Block

/-!
# Documents as segments

A document is read as plain text and tagged regions in turn, beginning and ending with plain text.
The plain texts and the regions' bodies, together with the marker lines left out between them, are
the document.
-/

namespace Stencil

/-- A tagged region of a document: what stands between an opening and a closing marker. -/
structure Region where
  /-- The comment style of both markers. -/
  style : Style
  attributes : Attributes
  /-- The text between the markers' lines. -/
  body : Text
  /-- The line of the opening marker. -/
  openingLine : Nat
  /-- The line on which the body begins. -/
  bodyLine : Nat
  /-- The line of the closing marker. -/
  closingLine : Nat
  deriving DecidableEq, Repr

/-- What a region asks for. -/
inductive Directive where
  /-- The body is a table whose columns `header` names. -/
  | keys (header : Text)
  /-- The region is left out. -/
  | ignore
  /-- The body is repeated for each row of the table. -/
  | template
  deriving DecidableEq, Repr

/-- The word for a directive. -/
def Directive.name : Directive → String
  | keys _ => "keys"
  | ignore => "ignore"
  | template => "template"

/-- The attribute that names the columns of a table. -/
def keysAttribute : Text := ['K', 'e', 'y', 's']

/-- The attribute that leaves a region out when its value is `true`. -/
def ignoreAttribute : Text := ['I', 'g', 'n', 'o', 'r', 'e']

namespace Region

/-- A region with columns is a table, whatever else it says. -/
def directive (region : Region) : Directive :=
  match region.attributes.lookup keysAttribute with
  | some header => .keys header
  | none =>
    if region.attributes.lookup ignoreAttribute = some ['t', 'r', 'u', 'e'] then .ignore
    else .template

/-- The region of a located block. -/
def ofBlock (text : Text) (lines : LineTable) (block : Block) : Region :=
  { style := block.style
    attributes := block.attributes
    body := text.slice block.body
    openingLine := lines.line block.opening.start
    bodyLine := lines.line block.body.start
    closingLine := lines.line block.closing.start }

end Region

/-- A part of a document. -/
inductive Segment where
  | plain (text : Text)
  | tagged (region : Region)
  deriving DecidableEq, Repr

/-- What reading a document yields: its segments up to the first fault, if there is one. -/
structure Reading where
  segments : List Segment
  fault : Option Error
  deriving DecidableEq, Repr

namespace Reading

/-- The regions that were read. -/
def regions (reading : Reading) : List Region :=
  reading.segments.filterMap fun
    | .plain _ => none
    | .tagged region => some region

/-- The segments, if the whole document could be read. -/
def toExcept (reading : Reading) : Except Error (List Segment) :=
  match reading.fault with
  | some fault => .error fault
  | none => .ok reading.segments

/-- Read the part of a document that begins at the position `start`. -/
def ofRest (text tag : Text) (lines : LineTable) (start : Nat) (inside : start ≤ text.length) :
    Reading :=
  match h : Block.locateFrom text tag lines start start with
  | .error fault => ⟨[], some fault⟩
  | .ok none => ⟨[.plain (text.drop start)], none⟩
  | .ok (some block) =>
    let rest := ofRest text tag lines block.resume (Block.locateFrom_resume inside h).2
    { rest with
      segments := .plain (text.slice ⟨start, block.opening.start⟩) ::
        .tagged (Region.ofBlock text lines block) :: rest.segments }
  termination_by text.length - start
  decreasing_by
    have := Block.locateFrom_resume inside h
    omega

section ofRest

variable {text tag : Text} {lines : LineTable} {start : Nat} (inside : start ≤ text.length)

theorem ofRest_of_error {fault : Error}
    (h : Block.locateFrom text tag lines start start = .error fault) :
    ofRest text tag lines start inside = ⟨[], some fault⟩ := by
  rw [ofRest]
  split <;> simp_all

theorem ofRest_of_none (h : Block.locateFrom text tag lines start start = .ok none) :
    ofRest text tag lines start inside = ⟨[.plain (text.drop start)], none⟩ := by
  rw [ofRest]
  split <;> simp_all

/-- A block splits off a plain text and a region, and the rest is read from behind it. -/
theorem ofRest_of_some {block : Block}
    (h : Block.locateFrom text tag lines start start = .ok (some block))
    (inside' : block.resume ≤ text.length) :
    ofRest text tag lines start inside =
      ⟨.plain (text.slice ⟨start, block.opening.start⟩) ::
          .tagged (Region.ofBlock text lines block) ::
          (ofRest text tag lines block.resume inside').segments,
        (ofRest text tag lines block.resume inside').fault⟩ := by
  rw [ofRest]
  split
  · next h' => simp [h] at h'
  · next h' => simp [h] at h'
  · next found h' =>
    obtain rfl : block = found := by simpa [h] using h'
    rfl

end ofRest

/-- Read a document. -/
def ofText (text tag : Text) : Reading :=
  ofRest text tag (LineTable.ofText text) 0 (Nat.zero_le _)

end Reading

/-- The segments of a document whose blocks are tagged with `tag`. -/
def parse (text tag : Text) : Except Error (List Segment) := (Reading.ofText text tag).toExcept

end Stencil
