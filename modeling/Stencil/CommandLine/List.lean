import Stencil.CommandLine.Arguments
import Stencil.CommandLine.Transcript
import Stencil.Generation.File
import Stencil.Report.JsonValue

/-!
# Lists of segments

The segments of a template in document order, each with its size in bytes and, if it is tagged, its
directive and its lines.
-/

namespace Stencil

/-- A directive in words, with the columns of a table. -/
def Directive.label : Directive → String
  | keys header => s!"keys ({header.string})"
  | ignore => "ignore"
  | template => "template"

/-- The line for a segment; an empty plain text has none. -/
def Segment.line? : Segment → Option String
  | plain [] => none
  | plain text => some s!"passthrough  {Text.byteSize text} bytes"
  | tagged region => some (s!"tagged       lines {region.openingLine}-{region.closingLine}  " ++
      s!"{region.directive.label}  ({region.style.name} comments, {Text.byteSize region.body} bytes)")

/-- A segment in JSON. -/
def Segment.json : Segment → JsonValue
  | plain text => .ofFields [
      ("kind".toList, .string "passthrough".toList),
      ("bytes".toList, .number (Text.byteSize text))]
  | tagged region => .ofFields [
      ("kind".toList, .string "tagged".toList),
      ("directive".toList, .string region.directive.name.toList),
      ("style".toList, .string region.style.name.toList),
      ("attributes".toList, .ofFields (region.attributes.map fun (name, value) => (name, .string value))),
      ("opening_line".toList, .number region.openingLine),
      ("body_line".toList, .number region.bodyLine),
      ("closing_line".toList, .number region.closingLine),
      ("bytes".toList, .number (Text.byteSize region.body))]

/-- The segments of a template as they are listed. -/
def listLines (input : Path) (format : ReportFormat) (segments : List Segment) : List Chunk :=
  match format with
  | .json => [.result ((JsonValue.array (segments.map Segment.json)).pretty 0).string]
  | .text =>
    let tagged := segments.countP fun
      | .tagged _ => true
      | .plain _ => false
    (segments.filterMap Segment.line?).map Chunk.result ++
      [.result "", .result s!"{tagged} tagged block(s) in {input.text.string}"]

variable {m : Type → Type} [Monad m] [FileAccess m]

/-- Read a template and list its segments. -/
def listFile (display : Display) (config : Config) (input : Path) (format : ReportFormat) :
    m Transcript := do
  match ← readSource input with
  | .error fault => return ⟨[display.diagnostic fault], 2⟩
  | .ok source =>
    let reading := Reading.ofText source.content config.tag
    let log := display.log reading.entries
    match reading.toExcept with
    | .error fault => return ⟨log ++ [display.diagnostic fault], 2⟩
    | .ok segments => return ⟨log ++ listLines input format segments, 0⟩

end Stencil
