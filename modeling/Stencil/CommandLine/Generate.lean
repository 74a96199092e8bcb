import Stencil.CommandLine.Transcript
import Stencil.Generation.Batch

/-!
# Reports of generating

Each attempt of a batch is reported in order, with its log. A batch with a failure ends with a count
of the failures and the code 2.
-/

namespace Stencil

/-- How many attempts failed. -/
def failureCount {α : Type} (attempts : List (Attempt α)) : Nat :=
  attempts.countP (·.isFailure)

/-- The code with which generating ends. -/
def generateExit {α : Type} (attempts : List (Attempt α)) : Nat :=
  if failureCount attempts > 0 then 2 else 0

namespace Display

/-- The line for an output that is, or would be, written or left as it is. -/
def writeLine (display : Display) (dryRun : Bool) (output : Path) : WriteOutcome → Chunk
  | .unchanged => .result ("Unchanged: " ++ output.text.string)
  | .written =>
    if dryRun then .result ("Would write: " ++ output.text.string)
    else .result (display.paint .green "Wrote" ++ " " ++ output.text.string)

/-- The report of one attempt at generating. -/
def generateAttempt (display : Display) (dryRun : Bool) (attempt : Attempt WriteOutcome) :
    List Chunk :=
  display.log attempt.noted.entries ++
    match attempt.outcome with
    | .error fault => display.failure attempt.input fault
    | .ok outcome => [display.writeLine dryRun attempt.output outcome]

/-- The report of a batch. -/
def generateReport (display : Display) (dryRun : Bool) (attempts : List (Attempt WriteOutcome)) :
    Transcript :=
  let failed := failureCount attempts
  let summary :=
    if failed > 0 then
      [display.errorLine s!"{failed} of {attempts.length} template(s) failed"]
    else []
  ⟨attempts.flatMap (display.generateAttempt dryRun) ++ summary, generateExit attempts⟩

end Display

end Stencil
