import Stencil.Error
import Stencil.Text.Whitespace

/-!
# Configuration

How blocks are tagged and counted, and how generated files are named and encoded. A configuration
that comes from a file is checked before it is used.
-/

namespace Stencil

/-- Whether generated files begin with a byte order mark. -/
inductive BomPolicy where
  /-- They do when the template does. -/
  | preserve
  | always
  | never
  deriving DecidableEq, Repr

namespace BomPolicy

/-- The word for a policy. -/
def name : BomPolicy → String
  | preserve => "preserve"
  | always => "always"
  | never => "never"

/-- The policy that a word names. -/
def ofName? (word : Text) : Option BomPolicy :=
  [preserve, always, never].find? (·.name.toList == word)

/-- Whether a mark is written for a template that has one or not. -/
def writes (policy : BomPolicy) (templateHasBom : Bool) : Bool :=
  match policy with
  | preserve => templateHasBom
  | always => true
  | never => false

end BomPolicy

/-- How generated files are named and encoded. -/
structure OutputConfig where
  /-- The part of a template's name that its output drops. -/
  templateMarker : Text := ['t', 'm', 'p', 'l']
  /-- The part that is put into the name of a generated file. -/
  generatedMarker : Text := ['g']
  /-- The extension of an output whose template has none. -/
  defaultExtension : Text := ['c', 's']
  bom : BomPolicy := .preserve
  deriving DecidableEq, Repr

/-- A configuration. -/
structure Config where
  /-- The name of the tags that mark blocks. -/
  tag : Text := ['t', 'm', 'p', 'l']
  /-- The word that becomes a row's number. -/
  indexToken : Text := ['i', '_']
  output : OutputConfig := {}
  deriving DecidableEq, Repr

namespace Config

/-- Whether a tag is an ASCII letter or underscore, and then letters, digits and `_`, `-`, `.`, `:`. -/
def isTagName : Text → Bool
  | [] => false
  | c :: rest =>
    (c.isAlpha || c == '_') &&
      rest.all fun c => c.isAlphanum || c == '_' || c == '-' || c == '.' || c == ':'

/-- The configuration, if it can be used; the tag is looked at first and the extension last. -/
def validate (config : Config) : Except ConfigFault Config :=
  if !isTagName config.tag then .error (.tagNotName config.tag)
  else if config.indexToken.all Text.isSpace then .error .emptyIndexToken
  else if config.output.defaultExtension.isEmpty then .error .emptyExtension
  else .ok config

end Config

end Stencil
