import Stencil.Config.Basic
import Stencil.Expansion.Assembler

/-!
# Generating a document

A template document is read whole, and then its segments are put together in order. The first
fault of either step ends the generation; there is no partial result.
-/

namespace Stencil

/-- The notes of reading a document: one for each block that was found. -/
def Reading.entries (reading : Reading) : List Entry :=
  reading.regions.map fun region => .locatedBlock region.openingLine region.style

/-- The document that a template document generates, with the notes made on the way. -/
def generateNoted (config : Config) (text : Text) : Noted (Except Error Text) :=
  let reading := Reading.ofText text config.tag
  match reading.toExcept with
  | .error fault => ⟨reading.entries, .error fault⟩
  | .ok segments =>
    let run := (Assembler.empty config.indexToken).pushAll segments
    ⟨reading.entries ++ run.entries, run.value.map (·.output)⟩

/-- The document that a template document generates. -/
def generate (config : Config) (text : Text) : Except Error Text := (generateNoted config text).value

end Stencil
