import Stencil.CommandLine.Arguments
import Stencil.CommandLine.Generate
import Stencil.LineDiff.Settle
import Stencil.Report.JsonValue

/-!
# Reports of checking

Templates that cannot be generated are reported as they come up, and then the outputs of all others.
The code is 2 if a template failed, else 1 if an output is stale or missing, and else 0; both formats
say the same.
-/

namespace Stencil

/-- The word for an outcome. -/
def CheckOutcome.status : CheckOutcome → String
  | upToDate => "up_to_date"
  | stale .. => "stale"
  | missing => "missing"

/-- An output that could be compared, by its template. -/
structure Checked where
  input : Path
  output : Path
  outcome : CheckOutcome
  deriving DecidableEq, Repr

/-- The outcomes of the attempts that did not fail, in order. -/
def checkedOf (attempts : List (Attempt CheckOutcome)) : List Checked :=
  attempts.filterMap fun attempt =>
    match attempt.outcome with
    | .error _ => none
    | .ok outcome => some ⟨attempt.input, attempt.output, outcome⟩

/-- How many outputs are stale or missing. -/
def outdatedCount (attempts : List (Attempt CheckOutcome)) : Nat :=
  (checkedOf attempts).countP (!·.outcome.isOk)

/-- The code with which checking ends. -/
def checkExit (attempts : List (Attempt CheckOutcome)) : Nat :=
  if failureCount attempts > 0 then 2
  else if outdatedCount attempts > 0 then 1
  else 0

/-- The verdict in JSON. -/
def checkJson (attempts : List (Attempt CheckOutcome)) : JsonValue :=
  let fileJson (checked : Checked) : JsonValue := .ofFields [
    ("file".toList, .string checked.input.text),
    ("output".toList, .string checked.output.text),
    ("status".toList, .string checked.outcome.status.toList)]
  .ofFields [
    ("ok".toList, .bool (outdatedCount attempts == 0 && failureCount attempts == 0)),
    ("files".toList, .array ((checkedOf attempts).map fileJson))]

namespace Display

/-- A line of a difference, with a line feed if it has no end. -/
def diffLine (display : Display) (line : ChangeKind × Text) : Chunk :=
  let (kind, text) := line
  let ended :=
    if text.getLast? = some '\n' ∨ text.getLast? = some '\r' then text.string
    else text.string ++ "\n"
  match kind with
  | .keep => ⟨.messages, "   " ++ ended⟩
  | .remove => ⟨.messages, "  " ++ display.paint .red ("-" ++ ended)⟩
  | .add => ⟨.messages, "  " ++ display.paint .green ("+" ++ ended)⟩

/-- The report of one output, which is empty if the output is up to date. -/
def checkedLines (display : Display) (diff : Bool) (checked : Checked) : List Chunk :=
  match checked.outcome with
  | .upToDate => []
  | .missing =>
    [.message (display.paint .yellow "missing:" ++ " " ++ checked.output.text.string)]
  | .stale expected current =>
    .message (display.paint .yellow "stale:" ++ " " ++ checked.output.text.string) ::
      if diff then (lineDiff current expected).map display.diffLine else []

/-- The line that says that nothing is to be done. -/
def checkPassed : Chunk := .result "Check passed: all generated files are up to date."

/-- The verdict in words. -/
def checkText (display : Display) (diff : Bool) (attempts : List (Attempt CheckOutcome)) :
    List Chunk :=
  let outdated := outdatedCount attempts
  let verdict :=
    if outdated = 0 ∧ failureCount attempts = 0 then [checkPassed]
    else if outdated > 0 then
      [.message "", .message (s!"{outdated} generated file(s) out of date. " ++
        "Run `tmplgen generate` to update them.")]
    else []
  (checkedOf attempts).flatMap (display.checkedLines diff) ++ verdict

/-- The log of an attempt at checking, and the report of its failure. -/
def checkAttempt (display : Display) (attempt : Attempt CheckOutcome) : List Chunk :=
  display.log attempt.noted.entries ++
    match attempt.outcome with
    | .error fault => display.failure attempt.input fault
    | .ok _ => []

/-- The report of a check. -/
def checkReport (display : Display) (diff : Bool) (format : ReportFormat)
    (attempts : List (Attempt CheckOutcome)) : Transcript :=
  let verdict := match format with
    | .json => [.result (checkJson attempts).compact.string]
    | .text => display.checkText diff attempts
  ⟨attempts.flatMap display.checkAttempt ++ verdict, checkExit attempts⟩

end Display

end Stencil
