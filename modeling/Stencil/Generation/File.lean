import Stencil.File.Access
import Stencil.Generation.Document
import Stencil.Generation.Naming

/-!
# Generating files

A template file is read, its document is generated in memory, and only then is the output touched,
and only if it holds something else. An output that is the template itself is refused before
anything is read.
-/

namespace Stencil

/-- The byte order mark. -/
def bom : Char := '\ufeff'

/-- A template as read from a file. -/
structure Source where
  path : Path
  /-- The text of the file without the byte order mark in front. -/
  content : Text
  hasBom : Bool
  deriving DecidableEq, Repr

/-- A text that begins with a byte order mark has it taken off, once. -/
def Source.ofText (path : Path) : Text → Source
  | c :: rest => if c = bom then ⟨path, rest, true⟩ else ⟨path, c :: rest, false⟩
  | [] => ⟨path, [], false⟩

/-- A generated document and where it belongs. -/
structure Rendered where
  input : Path
  output : Path
  /-- All of the file, with the byte order mark if it has one. -/
  contents : Text
  deriving DecidableEq, Repr

/-- What writing did to the output. -/
inductive WriteOutcome where
  | written
  /-- The output held the contents already. -/
  | unchanged
  deriving DecidableEq, Repr

/-- How an output compares with what would be generated now. -/
inductive CheckOutcome where
  | upToDate
  | stale (expected current : Text)
  | missing
  deriving DecidableEq, Repr

/-- Whether the output needs no generation. -/
def CheckOutcome.isOk (outcome : CheckOutcome) : Bool := outcome = .upToDate

/-- The contents of the file that a template generates. -/
def renderText (config : Config) (source : Source) : Noted (Except Error Text) :=
  let generated := generateNoted config source.content
  { generated with
    value := generated.value.map fun text =>
      if config.output.bom.writes source.hasBom then bom :: text else text }

variable {m : Type → Type} [Monad m] [FileAccess m]

/-- Whether two paths say the same, or lead to the same place. -/
def isSameFile (input output : Path) : m Bool := do
  if input.components = output.components then return true
  match ← FileAccess.canonical? input, ← FileAccess.canonical? output with
  | some input, some output => return input = output
  | _, _ => return false

/-- Read a template. -/
def readSource (path : Path) : m (Except Error Source) := do
  match ← FileAccess.readText path with
  | .error fault => return .error (.file fault)
  | .ok text => return .ok (Source.ofText path text)

/-- Generate the contents of an output in memory. -/
def renderFile (config : Config) (input output : Path) : m (Noted (Except Error Rendered)) := do
  if ← isSameFile input output then return .silent (.error (.outputConflict output.text))
  match ← readSource input with
  | .error fault => return .silent (.error fault)
  | .ok source =>
    match renderText config source with
    | ⟨entries, .error fault⟩ => return ⟨entries, .error fault⟩
    | ⟨entries, .ok contents⟩ =>
      return ⟨entries ++ [.rendered input.text (Text.byteSize contents)],
        .ok ⟨input, output, contents⟩⟩

/-- Write a rendered document, unless the output holds it already. -/
def writeRendered (rendered : Rendered) : m (Noted (Except Error WriteOutcome)) := do
  let current ← FileAccess.readText rendered.output
  if current.toOption = some rendered.contents then
    return ⟨[.unchanged rendered.output.text], .ok .unchanged⟩
  match ← FileAccess.writeText rendered.output rendered.contents with
  | .error fault => return .silent (.error (.file fault))
  | .ok () => return ⟨[.wrote rendered.input.text rendered.output.text], .ok .written⟩

/-- Generate an output file. -/
def generateFile (config : Config) (input output : Path) :
    m (Noted (Except Error WriteOutcome)) := do
  match ← renderFile config input output with
  | ⟨entries, .error fault⟩ => return ⟨entries, .error fault⟩
  | ⟨entries, .ok rendered⟩ => return (← writeRendered rendered).after entries

/-- Find out what generating an output file would do, without doing it. -/
def previewFile (config : Config) (input output : Path) :
    m (Noted (Except Error WriteOutcome)) := do
  match ← renderFile config input output with
  | ⟨entries, .error fault⟩ => return ⟨entries, .error fault⟩
  | ⟨entries, .ok rendered⟩ =>
    let current ← FileAccess.readText output
    if current.toOption = some rendered.contents then return ⟨entries, .ok .unchanged⟩
    else return ⟨entries, .ok .written⟩

/-- Compare an output file with what would be generated. -/
def checkFile (config : Config) (input output : Path) :
    m (Noted (Except Error CheckOutcome)) := do
  match ← renderFile config input output with
  | ⟨entries, .error fault⟩ => return ⟨entries, .error fault⟩
  | ⟨entries, .ok rendered⟩ =>
    match ← FileAccess.readText output with
    | .error .notFound => return ⟨entries, .ok .missing⟩
    | .error fault => return ⟨entries, .error (.file fault)⟩
    | .ok current =>
      if current = rendered.contents then return ⟨entries, .ok .upToDate⟩
      else return ⟨entries, .ok (.stale rendered.contents current)⟩

end Stencil
