import Stencil.Config.Basic
import Stencil.File.RawPath

/-!
# Names of generated files

A template's name decides the name of its output: the template marker before the extension is
dropped; a name without it gets the generated marker there; and a name without an extension gets
the default one. The directory stays, and so does a path whose name is not text.
-/

namespace Stencil

/-- A name in front of its last dot and behind it; nothing but an extension is no such name. -/
def splitExtension? (name : Text) : Option (Text × Text) :=
  match (Text.cut '.' name).reverse with
  | extension :: second :: rest =>
    let stem := Text.join '.' (second :: rest).reverse
    if stem.isEmpty then none else some (stem, extension)
  | _ => none

/-- A text without the ending `ending`, unless there is nothing else. -/
def dropEnding? (text ending : Text) : Option Text :=
  let base := text.take (text.length - ending.length)
  if ending.isSuffixOf text ∧ base ≠ [] then some base else none

namespace OutputConfig

/-- The output's name for the name of a template. -/
def outputName (config : OutputConfig) (name : Text) : Text :=
  match splitExtension? name with
  | some (stem, extension) =>
    match dropEnding? stem ('.' :: config.templateMarker) with
    | some base => base ++ '.' :: extension
    | none => stem ++ '.' :: config.generatedMarker ++ '.' :: extension
  | none => name ++ '.' :: config.defaultExtension

/-- The output's path for the path of a template that is text; a path without a file name stays. -/
def outputPath (config : OutputConfig) (input : Path) : Path :=
  match input.fileName? with
  | some name => input.withFileName (config.outputName name)
  | none => input

end OutputConfig

end Stencil
