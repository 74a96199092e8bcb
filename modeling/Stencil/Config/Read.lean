import Stencil.Config.Basic
import Stencil.Toml.Reader

/-!
# Reading a configuration

A configuration is a TOML table. Keys that mean nothing here are passed over, missing ones have
their defaults, and a value of the wrong type makes the text unreadable; only a text that can be
read is then checked.
-/

namespace Stencil

open Toml (Value Entries)

namespace BomPolicy

/-- A policy is a word, or a table of that one word with nothing in it. -/
def ofValue? : Value → Option BomPolicy
  | .text word => ofName? word
  | .table _ [(word, .array [])] | .table _ [(word, .table _ [])] => ofName? word
  | _ => none

end BomPolicy

namespace Config

/-- A text, if there is a value at all. -/
def textOr (default : Text) : Option Value → Option Text
  | none => some default
  | some (.text text) => some text
  | some _ => none

/-- A policy, if there is a value at all. -/
def bomOr (default : BomPolicy) : Option Value → Option BomPolicy
  | none => some default
  | some value => BomPolicy.ofValue? value

/-- The output settings, each from its own value. -/
def outputOf (templateMarker generatedMarker defaultExtension bom : Option Value) :
    Option OutputConfig := do
  let base : OutputConfig := {}
  return {
    templateMarker := ← textOr base.templateMarker templateMarker
    generatedMarker := ← textOr base.generatedMarker generatedMarker
    defaultExtension := ← textOr base.defaultExtension defaultExtension
    bom := ← bomOr base.bom bom }

/-- The output settings: by name in a table, or in order in an array. A moment holds none. -/
def outputOr (default : OutputConfig) : Option Value → Option OutputConfig
  | none => some default
  | some (.table _ entries) =>
    let entry (name : String) : Option Value := entries.lookup name.toList
    outputOf (entry "template_marker") (entry "generated_marker") (entry "default_extension")
      (entry "bom")
  | some (.array items) | some (.tables items) => outputOf items[0]? items[1]? items[2]? items[3]?
  | some .moment => some default
  | some _ => none

/-- The configuration that a table describes. -/
def ofEntries? (entries : Entries) : Option Config := do
  let base : Config := {}
  return {
    tag := ← textOr base.tag (entries.lookup "tag".toList)
    indexToken := ← textOr base.indexToken (entries.lookup "index_token".toList)
    output := ← outputOr base.output (entries.lookup "output".toList) }

/-- The configuration of a TOML text. -/
def read (text : Text) : Except Error Config :=
  match (Toml.read text).bind ofEntries? with
  | none => .error (.config .unreadable)
  | some config => config.validate.mapError .config

end Config

end Stencil
