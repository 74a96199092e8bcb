import Stencil.Text.Basic

/-!
# TOML documents

The values of a TOML document and how its tables are built. A table remembers how it came about,
because that decides who may still add to it: a header may complete a table that is only implied by
longer headers, a dotted key may extend such a table or one that dotted keys made, and nothing may
extend an inline table.
-/

namespace Stencil.Toml

/-- How a table came about. -/
inductive Origin where
  /-- Under a header of its own, or as the document itself. -/
  | header
  /-- As the parent of a table with a header. -/
  | implied
  /-- As the parent in a dotted key. -/
  | dotted
  /-- Between braces. -/
  | inline
  deriving DecidableEq, Repr

/-- A value; of numbers and moments only the kind is kept. -/
inductive Value where
  | text (text : Text)
  | boolean (value : Bool)
  | number
  /-- A date, a time, or both. -/
  | moment
  /-- An array between brackets. -/
  | array (items : List Value)
  /-- An array of tables with headers, the current one last. -/
  | tables (items : List Value)
  | table (origin : Origin) (entries : List (Text × Value))

/-- The keys of a table and their values. -/
abbrev Entries := List (Text × Value)

namespace Entries

/-- Give a key a value, in the place of the one it has. -/
def set (entries : Entries) (key : Text) (value : Value) : Entries :=
  if entries.any (·.1 == key) then
    entries.map fun entry => if entry.1 == key then (key, value) else entry
  else entries ++ [(key, value)]

/--
Change the table that a path leads to, making the tables that are missing. A dotted key may not
pass through a table that has a header, and nothing passes through inline tables.
-/
def change (isDotted : Bool) (act : Origin → Entries → Option (Origin × Entries)) :
    List Text → Origin → Entries → Option (Origin × Entries)
  | [], origin, entries => act origin entries
  | key :: path, origin, entries => do
    match entries.lookup key with
    | none =>
      let (made, inner) ← change isDotted act path (if isDotted then .dotted else .implied) []
      return (origin, entries.set key (.table made inner))
    | some (.table found inner) =>
      if found = .inline ∨ (isDotted ∧ found = .header) then failure
      let (found, inner) ← change isDotted act path found inner
      return (origin, entries.set key (.table found inner))
    | some (.tables items) =>
      match items.getLast? with
      | some (.table found inner) =>
        let (found, inner) ← change isDotted act path found inner
        return (origin, entries.set key (.tables (items.dropLast ++ [.table found inner])))
      | _ => failure
    | some _ => failure

/-- Assign a value to a key, written as a path; each key is assigned once. A key without dots belongs
to the table at hand, and one with dots to a table that has no header. -/
def assign (entries : Entries) (path : List Text) (value : Value) : Option Entries := do
  let parents := path.dropLast
  let key ← path.getLast?
  let add (origin : Origin) (entries : Entries) : Option (Origin × Entries) := do
    let free := if parents.isEmpty then origin != .dotted else origin == .dotted || origin == .implied
    if !free || (entries.lookup key).isSome then failure
    return (origin, entries ++ [(key, value)])
  return (← change true add parents .header entries).2

/-- Make several assignments. -/
def assignAll (entries : Entries) (assignments : List (List Text × Value)) : Option Entries :=
  assignments.foldlM (fun entries (path, value) => entries.assign path value) entries

/-- Add the table of a header, which is new or so far only implied. -/
def addTable (entries : Entries) (path : List Text) (assignments : List (List Text × Value)) :
    Option Entries := do
  let key ← path.getLast?
  let add (origin : Origin) (entries : Entries) : Option (Origin × Entries) := do
    let known ← match entries.lookup key with
      | none => some []
      | some (.table .implied known) => some known
      | some _ => none
    return (origin, entries.set key (.table .header (← assignAll known assignments)))
  return (← change false add path.dropLast .header entries).2

/-- Add a table to an array of tables, which is new or made of such headers. -/
def addToTables (entries : Entries) (path : List Text)
    (assignments : List (List Text × Value)) : Option Entries := do
  let key ← path.getLast?
  let add (origin : Origin) (entries : Entries) : Option (Origin × Entries) := do
    let known ← match entries.lookup key with
      | none => some []
      | some (.tables known) => some known
      | some _ => none
    let table := Value.table .header (← assignAll [] assignments)
    return (origin, entries.set key (.tables (known ++ [table])))
  return (← change false add path.dropLast .header entries).2

end Entries

end Stencil.Toml
