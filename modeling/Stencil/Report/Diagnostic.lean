import Stencil.Error
import Stencil.Report.Paint
import Stencil.Report.Wrap

/-!
# Diagnostics

An error is shown as its code, its message and, if there is any, its help. Messages and helps are
set into a fixed number of columns: a bar stands in front of the further lines of a message, and
those of a help are indented as far as the first. Where a text has a run of a script that is written
without spaces, no places to break are known inside it, which is noted in front of the text.
-/

namespace Stencil

/-- The name of a script without spaces that is known to need a dictionary. -/
def ComplexScript.name? : ComplexScript → Option String
  | thai => some "Thai"
  | lao => some "Lao"
  | myanmar => some "Myanmar"
  | khmer => some "Khmer"
  | other => none

namespace Diagnostic

/-- The columns of a diagnostic, its indentation included. -/
def columns : Nat := 78

/-- The note about a run of a script. -/
def missingModel (script : ComplexScript) : String :=
  match script.name? with
  | some name => "ICU4X data error: No segmentation model for complex script: " ++ name ++ "\n"
  | none => ""

/-- The notes about the runs of a text, line by line. -/
def missingModels (text : Text) : String :=
  String.join (text.pieces.flatMap fun line => (complexRuns line.visible).map missingModel)

/-- A text behind a head that takes `indent` columns, with `bar` in front of its further lines. -/
def indented (head bar : String) (indent : Nat) (text : String) : String :=
  let lines := (wrapText (columns - indent) text.toList).map Text.string
  missingModels text.toList ++ head ++ String.intercalate ("\n" ++ bar) lines ++ "\n"

/-- A head in a colour that a reset ends. -/
def head (colored : Bool) (color : Color) (text : String) : String :=
  if colored then color.start ++ text ++ Color.reset else text

/-- The head of a message and the bar of its further lines. -/
def mark (colored : Bool) : String × String :=
  if colored then ("  " ++ head true .red "×" ++ " ", "  " ++ head true .red "│" ++ " ")
  else ("  x ", "  | ")

/-- The text of a diagnostic, with an empty line behind it. -/
def render (colored : Bool) (fault : Error) : String :=
  let message := indented (mark colored).1 (mark colored).2 4 fault.message
  let help := match fault.help with
    | some help => indented (head colored .cyan "  help: ") "        " 8 help
    | none => ""
  head colored .red fault.code ++ "\n\n" ++ message ++ help ++ "\n"

end Diagnostic

end Stencil
