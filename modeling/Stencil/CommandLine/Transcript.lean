import Stencil.File.Path
import Stencil.Report.Diagnostic
import Stencil.Report.Log

/-!
# Transcripts

What a command writes, in order, and the code with which it ends. Results go to one channel; faults,
the log and everything else that is addressed to the user go to the other.
-/

namespace Stencil

/-- Where a text is written. -/
inductive Channel where
  | results
  | messages
  deriving DecidableEq, Repr

/-- A text that is written at once. -/
structure Chunk where
  channel : Channel
  text : String
  deriving DecidableEq, Repr

/-- All that a command writes, and the code with which it ends. -/
structure Transcript where
  chunks : List Chunk
  exit : Nat
  deriving DecidableEq, Repr

namespace Transcript

/-- All that is written to a channel. -/
def written (transcript : Transcript) (channel : Channel) : String :=
  String.join ((transcript.chunks.filter (·.channel = channel)).map (·.text))

/-- The transcript with something else written before. -/
def after (chunks : List Chunk) (transcript : Transcript) : Transcript :=
  { transcript with chunks := chunks ++ transcript.chunks }

@[simp] theorem exit_after (chunks : List Chunk) (transcript : Transcript) :
    (transcript.after chunks).exit = transcript.exit := rfl

end Transcript

namespace Chunk

/-- A line of a result. -/
def result (text : String) : Chunk := ⟨.results, text ++ "\n"⟩

/-- A line of a message. -/
def message (text : String) : Chunk := ⟨.messages, text ++ "\n"⟩

end Chunk

/-- How messages are shown. -/
structure Display where
  colored : Bool
  filter : LogFilter
  deriving DecidableEq, Repr

namespace Display

/-- A word in a colour. -/
def paint (display : Display) (color : Color) (text : String) : String :=
  Stencil.paint display.colored color text

/-- The log of some entries. -/
def log (display : Display) (entries : List Entry) : List Chunk :=
  (entries.filter display.filter.shows).map fun entry => ⟨.messages, entry.logLine display.colored⟩

/-- The report of a fault. -/
def diagnostic (display : Display) (fault : Error) : Chunk :=
  ⟨.messages, Diagnostic.render display.colored fault⟩

/-- The report of a fault that concerns one template. -/
def failure (display : Display) (input : Path) (fault : Error) : List Chunk :=
  [.message (display.paint .red "failed:" ++ " " ++ input.text.string), display.diagnostic fault]

/-- The report of a fault of the program's own. -/
def errorLine (display : Display) (text : String) : Chunk :=
  .message (display.paint .red "error:" ++ " " ++ text)

end Display

end Stencil
