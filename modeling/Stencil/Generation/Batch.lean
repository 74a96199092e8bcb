import Stencil.Generation.File

/-!
# Batches

Several templates are processed one after the other. Each is an attempt of its own: whatever comes
of one, the next one is made.
-/

namespace Stencil

/-- What came of one template of a batch. -/
structure Attempt (α : Type) where
  input : Path
  output : Path
  /-- The notes that were made, and the outcome. -/
  noted : Noted (Except Error α)

namespace Attempt

variable {α : Type}

/-- The outcome of an attempt. -/
abbrev outcome (attempt : Attempt α) : Except Error α := attempt.noted.value

/-- Whether an attempt failed. -/
def isFailure (attempt : Attempt α) : Bool :=
  match attempt.outcome with
  | .error _ => true
  | .ok _ => false

end Attempt

variable {m : Type → Type} [Monad m] [FileAccess m]

/-- Make an attempt at each of some templates, in order. -/
def attemptEach {α : Type} (act : Path → Path → m (Noted (Except Error α)))
    (outputOf : Path → Path) : List Path → m (List (Attempt α))
  | [] => return []
  | input :: rest => do
    let noted ← act input (outputOf input)
    return ⟨input, outputOf input, noted⟩ :: (← attemptEach act outputOf rest)

/-- Generate the outputs of some templates. -/
def generateEach (config : Config) (outputOf : Path → Path) (inputs : List Path) :
    m (List (Attempt WriteOutcome)) :=
  attemptEach (generateFile config) outputOf inputs

/-- Find out what generating the outputs of some templates would do. -/
def previewEach (config : Config) (outputOf : Path → Path) (inputs : List Path) :
    m (List (Attempt WriteOutcome)) :=
  attemptEach (previewFile config) outputOf inputs

/-- Compare the outputs of some templates with what would be generated. -/
def checkEach (config : Config) (inputs : List Path) : m (List (Attempt CheckOutcome)) :=
  attemptEach (checkFile config) config.output.outputPath inputs

end Stencil
