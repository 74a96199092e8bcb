import Stencil.Marker.Basic

/-!
# Errors

Everything that can go wrong, as the cause it has, and the three texts that a report shows for a
cause: its message, its code and the advice that goes with it.
-/

namespace Stencil

/-- Why a file cannot be read or written. -/
inductive FileFault where
  | notFound
  | isDirectory
  /-- A file stands where a directory is needed. -/
  | notDirectory
  /-- A path leads through more symbolic links than are followed. -/
  | tooManyLinks
  /-- The content of the file is not UTF-8. -/
  | invalidText
  /-- A fault of the system that the file tree does not model, in the system's words. -/
  | other (message : String)
  deriving DecidableEq, Repr

/-- The wording of a file fault. -/
def FileFault.message : FileFault → String
  | notFound => "No such file or directory (os error 2)"
  | isDirectory => "Is a directory (os error 21)"
  | notDirectory => "Not a directory (os error 20)"
  | tooManyLinks => "Too many levels of symbolic links (os error 40)"
  | invalidText => "stream did not contain valid UTF-8"
  | other message => message

/-- Why a configuration text is refused. -/
inductive ConfigFault where
  /-- The text is not TOML, or a value is not of the type that its key asks for. -/
  | unreadable
  | tagNotName (tag : Text)
  | emptyIndexToken
  | emptyExtension
  deriving DecidableEq, Repr

/-- The wording of a configuration fault. -/
def ConfigFault.message : ConfigFault → String
  | unreadable => "the text is not TOML of the expected shape"
  | tagNotName tag => s!"`tag` must be a tag name, got `{tag.string}`"
  | emptyIndexToken => "`index_token` must not be empty"
  | emptyExtension => "`output.default_extension` must not be empty"

/-- Why a document, a table, a configuration or a file could not be processed. -/
inductive Error where
  | file (fault : FileFault)
  /-- The block opened on `line` is never closed. -/
  | unclosedBlock (tag : Text) (line : Nat)
  | invalidMarker (tag : Text) (line : Nat) (reason : MarkerError)
  | unmatchedQuote (line : Nat)
  /-- A row has another number of fields than there are columns. -/
  | fieldCount (line expected got : Nat)
  | emptyColumn (line : Nat)
  | config (fault : ConfigFault)
  /-- The output is the template itself. -/
  | outputConflict (output : Text)
  deriving DecidableEq, Repr

namespace Error

/-- What went wrong, in one line. -/
def message : Error → String
  | file fault => fault.message
  | unclosedBlock tag line =>
    s!"missing closing tag for `<{tag.string}>` block opened on line {line}"
  | invalidMarker tag line reason =>
    s!"invalid `<{tag.string}>` tag on line {line}: {reason.message}"
  | unmatchedQuote line => s!"unmatched quote in keys row on line {line}"
  | fieldCount line expected got =>
    s!"keys row on line {line} has {got} field(s), the header declares {expected}"
  | emptyColumn line => s!"empty column name in keys header on line {line}"
  | config fault => s!"failed to parse config file: {fault.message}"
  | outputConflict output => s!"refusing to overwrite the template `{output.string}`"

/-- The code of a kind of error. -/
def code : Error → String
  | file _ => "tmplgen::io_error"
  | unclosedBlock .. => "tmplgen::malformed_block"
  | invalidMarker .. => "tmplgen::invalid_marker"
  | unmatchedQuote _ => "tmplgen::unmatched_quote"
  | fieldCount .. => "tmplgen::arity_mismatch"
  | emptyColumn _ => "tmplgen::empty_column_name"
  | config _ => "tmplgen::config_parse"
  | outputConflict _ => "tmplgen::output_conflict"

/-- What to do about it, where there is something to do. -/
def help : Error → Option String
  | file _ => none
  | unclosedBlock tag _ =>
    some s!"add a `</{tag.string}>` comment in the same comment style after the block body"
  | invalidMarker .. =>
    some "attributes must be written as `name=\"value\"`, separated by whitespace"
  | unmatchedQuote _ => some "close the quoted field or escape the quote as `\\\"`"
  | fieldCount .. => some "separate fields with `;` and quote any field that contains a `;`"
  | emptyColumn _ => some "remove the stray `;` from the `Keys` attribute"
  | config _ => some
      "check that tmplgen.toml is valid TOML with top-level keys and an optional [output] section"
  | outputConflict _ => some "pass `--out` with a different path or rename the template"

end Error

end Stencil
