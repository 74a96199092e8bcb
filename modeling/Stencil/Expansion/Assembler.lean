import Stencil.Expansion.Word
import Stencil.Journal

/-!
# Assembly

A document is put together from its segments in order. Tables take effect for the templates that
follow them, until the next table; a segment that fails changes nothing.
-/

namespace Stencil

/-- A row's copy of a template: each column in turn becomes the row's field, and then the index
token becomes the row's number, counted from 0. -/
def expandRow (header : List Text) (indexToken template : Text) (index : Nat) (row : List Text) :
    Text :=
  replaceWord
    ((header.zip row).foldl (fun text column => replaceWord text column.1 column.2) template)
    indexToken (Nat.toDigits 10 index)

/-- The copies of a template for all rows of a table. -/
def expand (table : Table) (template indexToken : Text) : Text :=
  (table.rows.mapIdx (expandRow table.header indexToken template)).flatten

/-- What has been put together so far. -/
structure Assembler where
  indexToken : Text
  /-- The table of the last table region that could be read. -/
  table : Option Table
  output : Text
  deriving DecidableEq, Repr

namespace Assembler

/-- Nothing is put together yet, and no table is in effect. -/
def empty (indexToken : Text) : Assembler := ⟨indexToken, none, []⟩

/-- Add a tagged region. The result stands next to the assembler as it is afterwards. -/
def addRegion (assembler : Assembler) (region : Region) : Noted (Except Error Unit) × Assembler :=
  match region.directive with
  | .keys header =>
    match Table.read header region.body region.openingLine region.bodyLine with
    | .error fault => (.silent (.error fault), assembler)
    | .ok table =>
      (⟨[.loadedTable region.openingLine table.header.length table.rows.length], .ok ()⟩,
        { assembler with table := some table })
  | .ignore => (⟨[.ignoredBlock region.openingLine], .ok ()⟩, assembler)
  | .template =>
    match assembler.table with
    | none => (⟨[.skippedTemplate region.openingLine], .ok ()⟩, assembler)
    | some table =>
      let output := assembler.output ++ expand table region.body assembler.indexToken
      (.silent (.ok ()), { assembler with output })

/-- Add the next segment. -/
def add (assembler : Assembler) : Segment → Noted (Except Error Unit) × Assembler
  | .plain text => (.silent (.ok ()), { assembler with output := assembler.output ++ text })
  | .tagged region => assembler.addRegion region

/-- The assembler with the next segment added, unless that fails. -/
def push (assembler : Assembler) (segment : Segment) : Noted (Except Error Assembler) :=
  let (added, next) := assembler.add segment
  ⟨added.entries, added.value.map fun _ => next⟩

/-- Add segments up to the first one that fails. -/
def pushAll (assembler : Assembler) : List Segment → Noted (Except Error Assembler)
  | [] => .silent (.ok assembler)
  | segment :: rest =>
    match assembler.push segment with
    | ⟨entries, .error fault⟩ => ⟨entries, .error fault⟩
    | ⟨entries, .ok next⟩ => (next.pushAll rest).after entries

end Assembler

end Stencil
