import Stencil.Journal
import Stencil.Report.Paint
import Stencil.Text.Alphanumeric
import Stencil.Text.Whitespace

/-!
# The log

A journal entry is logged on a line with its severity, the part of the program that it comes from, a
message and fields. A filter decides which entries are shown: for each entry, the rule with the
longest target that the entry's target begins with.
-/

namespace Stencil

/-- How much of the log is shown, from nothing to everything. -/
inductive LogLevel where
  | off
  | error
  | warn
  | info
  | debug
  | trace
  deriving DecidableEq, Repr

namespace LogLevel

/-- The number of a level, which is also a name for it. -/
def rank : LogLevel → Nat
  | off => 0
  | error => 1
  | warn => 2
  | info => 3
  | debug => 4
  | trace => 5

/-- The word for a level. -/
def name : LogLevel → String
  | off => "off"
  | error => "error"
  | warn => "warn"
  | info => "info"
  | debug => "debug"
  | trace => "trace"

/-- The level that a word or a number names, in capitals or not. -/
def ofName? (word : Text) : Option LogLevel :=
  [off, error, warn, info, debug, trace].find? fun level =>
    word.map Char.toLower == level.name.toList || word == Nat.toDigits 10 level.rank

end LogLevel

namespace Entry

/-- The level from which on an entry is shown. -/
def level : Entry → LogLevel
  | wrote .. => .info
  | _ => .debug

/-- The part of the program that an entry comes from. -/
def target : Entry → String
  | locatedBlock .. => "tmplgen_core::parser"
  | loadedTable .. | ignoredBlock _ | skippedTemplate _ => "tmplgen_core::engine"
  | rendered .. | unchanged _ | wrote .. => "tmplgen_core::files"
  | loadingConfig _ | resolvedConfig .. => "tmplgen"

/-- What an entry says. -/
def message : Entry → String
  | locatedBlock .. => "located tagged block"
  | loadedTable .. => "loaded keys table"
  | ignoredBlock _ => "ignored tagged block"
  | skippedTemplate _ => "skipped template block without an active keys table"
  | rendered .. => "rendered template"
  | unchanged _ => "output unchanged"
  | wrote .. => "wrote generated file"
  | loadingConfig _ => "loading explicit config"
  | resolvedConfig .. => "resolved config"

/-- The particulars of an entry, by name. -/
def fields : Entry → List (String × String)
  | locatedBlock line style => [("line", toString line), ("style", style.name)]
  | loadedTable line columns rows =>
    [("line", toString line), ("columns", toString columns), ("rows", toString rows)]
  | ignoredBlock line | skippedTemplate line => [("line", toString line)]
  | rendered input bytes => [("input", input.string), ("bytes", toString bytes)]
  | unchanged output => [("output", output.string)]
  | wrote input output => [("input", input.string), ("output", output.string)]
  | loadingConfig path => [("path", path.string)]
  | resolvedConfig root found => [("root", root.string), ("found", if found then "true" else "false")]

end Entry

/-- Which entries a part of the program shows. -/
structure LogRule where
  /-- What the targets begin with; every target begins with nothing. -/
  target : Text
  level : LogLevel
  deriving DecidableEq, Repr

/-- Which entries are shown. -/
abbrev LogFilter := List LogRule

namespace LogRule

/-- Whether a rule may begin with this character. -/
def mayBegin (c : Char) : Bool := Text.isAlphanumeric c || c == '_' || c == '-' || c == ':'

/-- What stands behind the brackets of a rule: nothing, or an equals sign and a level. -/
def isBracketEnd : Text → Bool
  | [] => true
  | '=' :: level => level.isEmpty || (LogLevel.ofName? level).isSome
  | _ => false

/-- The rule that a text states: a level, a target, or both with an equals sign between them. A rule
about one of the brackets that group entries applies to no entry; it is `some none`. -/
def ofText? (text : Text) : Option (Option LogRule) :=
  let rule := text.trim Text.isSpace
  match rule.head? with
  | none => none
  | some c =>
    if !(mayBegin c || c == '[') then none
    else
      let target := rule.takeWhile fun c => c != '=' && c != '['
      match rule.dropWhile fun c => c != '=' && c != '[' with
      | [] =>
        match LogLevel.ofName? target with
        | some level => some (some ⟨[], level⟩)
        | none => some (some ⟨target, .trace⟩)
      | '=' :: level =>
        if level.isEmpty then some (some ⟨target, .trace⟩)
        else (LogLevel.ofName? level).map fun level => some ⟨target, level⟩
      | bracketed =>
        match bracketed.dropWhile (· != ']') with
        | ']' :: rest => if isBracketEnd rest then some none else none
        | _ => none

end LogRule

namespace LogFilter

/-- Every entry from a level on. -/
def fromLevel (level : LogLevel) : LogFilter := [⟨[], level⟩]

/-- The rules that texts state, if all of them are rules. -/
def ofTexts? : List Text → Option LogFilter
  | [] => some []
  | text :: rest => do
    let rule ← LogRule.ofText? text
    let rules ← ofTexts? rest
    return rule.toList ++ rules

/-- The filter of a list of rules, with commas between them. What is no such list counts as none, and
without a list only warnings are shown; an empty list shows errors. -/
def ofText (text : Option Text) : LogFilter :=
  match text with
  | none => fromLevel .warn
  | some text =>
    match ofTexts? ((Text.cut ',' text).filter (!·.isEmpty)) with
    | none => fromLevel .warn
    | some [] => fromLevel .error
    | some rules => rules

/-- The level that holds for a target: that of the longest rule for it, the last of those that are
equally long. -/
def levelFor (filter : LogFilter) (target : Text) : LogLevel :=
  let applying := filter.filter (·.target.isPrefixOf target)
  let best := applying.foldl (fun (best : Option LogRule) rule =>
    match best with
    | some longest => if longest.target.length ≤ rule.target.length then some rule else best
    | none => some rule) none
  (best.map (·.level)).getD .off

/-- Whether an entry is shown. -/
def shows (filter : LogFilter) (entry : Entry) : Bool :=
  entry.level.rank ≤ (filter.levelFor entry.target.toList).rank

end LogFilter

namespace Entry

/-- The word for the level of an entry, set flush right, with its colour. -/
def levelLabel : LogLevel → String × Color
  | .info => (" INFO", .green)
  | _ => ("DEBUG", .blue)

/-- A text in faint type, if there are colours. -/
def faint (colored : Bool) (text : String) : String :=
  if colored then "\x1b[2m" ++ text ++ Color.reset else text

/-- A text in slanted type, if there are colours. -/
def slanted (colored : Bool) (text : String) : String :=
  if colored then "\x1b[3m" ++ text ++ Color.reset else text

/-- An entry's line in the log. -/
def logLine (colored : Bool) (entry : Entry) : String :=
  let (label, color) := levelLabel entry.level
  let level := if colored then color.start ++ label ++ Color.reset else label
  let fields := entry.fields.map fun (name, value) =>
    " " ++ slanted colored name ++ faint colored "=" ++ value
  level ++ " " ++ faint colored entry.target ++ faint colored ":" ++ " " ++ entry.message ++
    String.join fields ++ "\n"

end Entry

end Stencil
