import Stencil.Error
import Stencil.Text.Alphanumeric

/-!
# Tables

A table is written as a header of column names and one row for each line of a body, the fields
separated by semicolons. Quotation marks protect the semicolons between them and stay in the field;
a mark after a backslash is an ordinary character. Whatever stands on a line before its first
letter, digit, underscore or quotation mark is not part of the row.
-/

namespace Stencil

/-- The columns of a table and its rows, each row with its fields in column order. -/
structure Table where
  header : List Text
  rows : List (List Text)
  deriving DecidableEq, Repr

namespace Table

open Text

/-- Whether a row may begin with this character. -/
def beginsRow (c : Char) : Bool := isAlphanumeric c || c == '_' || c == '"'

/-- The offsets of the quotation marks that count, in a part of a row that begins at `offset` behind
the character `previous`. A character takes up its size. -/
def quoteOffsets (size : Char → Nat) (offset : Nat) (previous : Option Char) : Text → List Nat
  | [] => []
  | c :: rest =>
    let later := quoteOffsets size (offset + size c) (some c) rest
    if c == '"' && previous != some '\\' then offset :: later else later

/-- The pieces of a row from the one on that begins at `start`. What stands from `offset` on is yet to
be looked at, item by item; a part of it is quoted from one of the `marks` to the next. -/
def piecesFrom {α : Type} [BEq α] (separator : α) (row : List α) (start offset : Nat)
    (marks : List Nat) (quoted : Bool) : List α → List (List α)
  | [] => [row.drop start]
  | item :: rest =>
    if marks.head? == some offset then
      piecesFrom separator row start (offset + 1) marks.tail (!quoted) rest
    else if item == separator && !quoted then
      (row.take offset).drop start ::
        piecesFrom separator row (offset + 1) (offset + 1) marks quoted rest
    else piecesFrom separator row start (offset + 1) marks quoted rest

/-- The positions of the quotation marks of a row that count. -/
def quotes (row : Text) : List Nat := quoteOffsets (fun _ => 1) 0 none row

/-- The fields of a row, without the blanks around them. -/
def fields (row : Text) : List Text :=
  (piecesFrom ';' row 0 0 (quotes row) false row).map (trim isBlank)

/-- The row that a line holds; a line without any character that begins a row holds none. -/
def rowOf? (line : Text) : Option Text :=
  match line.dropWhile (!beginsRow ·) with
  | [] => none
  | row => some row

/-- The lines of a body. A line feed takes one carriage return in front of it along. -/
def bodyLines (body : Text) : List Text :=
  let lines := pieces body
  let full := lines.dropLast.map fun line =>
    if line.getLast? = some '\r' then line.dropLast else line
  match lines.getLast? with
  | some [] | none => full
  | some last => full ++ [last]

/-- The rows of numbered lines, each with `width` fields. -/
def readRows (width number : Nat) : List Text → Except Error (List (List Text))
  | [] => .ok []
  | line :: rest =>
    match rowOf? line with
    | none => readRows width (number + 1) rest
    | some row =>
      if (quotes row).length % 2 ≠ 0 then .error (.unmatchedQuote number)
      else
        let values := fields row
        if values.length ≠ width then .error (.fieldCount number width values.length)
        else
          match readRows width (number + 1) rest with
          | .error fault => .error fault
          | .ok rows => .ok (values :: rows)

/-- The columns that a header names. -/
def columns (header : Text) : List Text := (cut ';' header).map (trim isBlank)

/-- Read a table whose header stands on one line and whose body begins on another. -/
def read (header body : Text) (headerLine bodyLine : Nat) : Except Error Table :=
  let names := columns header
  if names.any (·.isEmpty) then .error (.emptyColumn headerLine)
  else
    match readRows names.length bodyLine (bodyLines body) with
    | .error fault => .error fault
    | .ok rows => .ok ⟨names, rows⟩

end Table

end Stencil
