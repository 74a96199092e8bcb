import Stencil.File.Path

/-!
# Arguments

The words of a command line ask for a command with its options and templates. They are read from
left to right, and the first word that cannot be understood, or that asks for help or the version,
ends the reading. Options that hold for every command may stand in front of the command or behind
it, where they count for more.
-/

namespace Stencil

/-- How the results of a command are written. -/
inductive ReportFormat where
  | text
  | json
  deriving DecidableEq, Repr

/-- The format that a word names. -/
def ReportFormat.ofName? (word : Text) : Option ReportFormat :=
  if word = ['t', 'e', 'x', 't'] then some .text
  else if word = ['j', 's', 'o', 'n'] then some .json
  else none

/-- What holds for every command. -/
structure CommonOptions where
  /-- The configuration file that is used in place of the one that would be found. -/
  config : Option Path
  /-- The directory in which a configuration is looked for. -/
  directory : Option Path
  /-- Whether everything that is logged is shown. -/
  verbose : Bool
  /-- Whether colours are refused. -/
  plain : Bool
  deriving DecidableEq, Repr

/-- A command with its options and templates. -/
inductive Command where
  | generate (inputs : List Path) (output : Option Path) (dryRun : Bool)
  | check (inputs : List Path) (diff : Bool) (format : ReportFormat)
  | list (input : Path) (format : ReportFormat)
  deriving DecidableEq, Repr

/-- The options. -/
inductive OptionName where
  | config
  | path
  | verbose
  | noColor
  | out
  | dryRun
  | diff
  | format
  | help
  | version
  deriving DecidableEq, Repr

namespace OptionName

/-- The word for an option, which two hyphens introduce. -/
def word : OptionName → String
  | config => "config"
  | path => "path"
  | verbose => "verbose"
  | noColor => "no-color"
  | out => "out"
  | dryRun => "dry-run"
  | diff => "diff"
  | format => "format"
  | help => "help"
  | version => "version"

/-- The letter for an option, which one hyphen introduces. -/
def letter? : OptionName → Option Char
  | config => some 'c'
  | path => some 'p'
  | verbose => some 'v'
  | out => some 'o'
  | help => some 'h'
  | version => some 'V'
  | noColor | dryRun | diff | format => none

/-- Whether a value follows an option. -/
def takesValue : OptionName → Bool
  | config | path | out | format => true
  | _ => false

/-- The options that hold for every command. -/
def common : List OptionName := [config, path, verbose, noColor]

end OptionName

/-- Why arguments cannot be understood. -/
inductive ArgumentFault where
  | unknownOption (word : Text)
  | missingValue (option : OptionName)
  | unexpectedValue (option : OptionName) (value : Text)
  | invalidValue (option : OptionName) (value : Text)
  | repeatedOption (option : OptionName)
  | unknownCommand (word : Text)
  | unexpectedArgument (word : Text)
  | emptyPath
  | missingTemplates
  deriving DecidableEq, Repr

/-- The wording of a fault. -/
def ArgumentFault.message : ArgumentFault → String
  | unknownOption word | unexpectedArgument word => s!"unexpected argument `{word.string}`"
  | missingValue option => s!"a value is required for `--{option.word}`"
  | unexpectedValue option value => s!"unexpected value `{value.string}` for `--{option.word}`"
  | invalidValue option value => s!"invalid value `{value.string}` for `--{option.word}`"
  | repeatedOption option => s!"`--{option.word}` cannot be used more than once"
  | unknownCommand word => s!"unrecognized subcommand `{word.string}`"
  | emptyPath => "a path must not be empty"
  | missingTemplates => "at least one template is required"

/-- What ends the reading of arguments early. -/
inductive EarlyEnd where
  | help
  | version
  | fault (fault : ArgumentFault)
  deriving DecidableEq, Repr

/-- The places of a command line, at which different options are known. -/
inductive ArgumentLevel where
  /-- In front of a command. -/
  | program
  | generate
  | check
  | list
  deriving DecidableEq, Repr

namespace ArgumentLevel

/-- The options that are known. -/
def options : ArgumentLevel → List OptionName
  | program => OptionName.common ++ [.help, .version]
  | generate => OptionName.common ++ [.out, .dryRun, .help]
  | check => OptionName.common ++ [.diff, .format, .help]
  | list => OptionName.common ++ [.format, .help]

/-- Whether another template may follow some. -/
def hasRoom (level : ArgumentLevel) (count : Nat) : Bool :=
  match level with
  | list => count = 0
  | _ => true

end ArgumentLevel

/-- The options and templates that were read at a level; an option without a value has an empty one. -/
structure Given where
  options : List (OptionName × Text)
  templates : List Text
  deriving DecidableEq, Repr

namespace Given

/-- Nothing was read yet. -/
def nothing : Given := ⟨[], []⟩

/-- Add an option, which may be given once. -/
def withOption (given : Given) (option : OptionName) (value : Text) : Except EarlyEnd Given :=
  if option = .help then .error .help
  else if option = .version then .error .version
  else if (given.options.lookup option).isSome then .error (.fault (.repeatedOption option))
  else if option = .format ∧ ReportFormat.ofName? value = none then
    .error (.fault (.invalidValue option value))
  else if option.takesValue ∧ value = [] then .error (.fault (.missingValue option))
  else .ok { given with options := given.options ++ [(option, value)] }

/-- Add a template. -/
def withTemplate (given : Given) (level : ArgumentLevel) (word : Text) : Except EarlyEnd Given :=
  if !level.hasRoom given.templates.length then .error (.fault (.unexpectedArgument word))
  else if word = [] then .error (.fault .emptyPath)
  else .ok { given with templates := given.templates ++ [word] }

/-- Read an option that is written as a word, with its value behind an equals sign if there is one.
An option whose value is still to come is returned too. -/
def readWord (given : Given) (level : ArgumentLevel) (word : Text) :
    Except EarlyEnd (Given × Option OptionName) :=
  let name := word.takeWhile (· != '=')
  match level.options.find? (·.word.toList == name), word.dropWhile (· != '=') with
  | none, _ => .error (.fault (.unknownOption ('-' :: '-' :: name)))
  | some option, [] =>
    if option.takesValue then .ok (given, some option)
    else (given.withOption option []).map (·, none)
  | some option, _ :: value =>
    if option.takesValue then (given.withOption option value).map (·, none)
    else .error (.fault (.unexpectedValue option value))

/-- Read options that are written as letters. Behind the letter of an option with a value stands the
value, with or without an equals sign, unless it is the next word. -/
def readLetters (given : Given) (level : ArgumentLevel) :
    Text → Except EarlyEnd (Given × Option OptionName)
  | [] => .ok (given, none)
  | c :: rest =>
    match level.options.find? (·.letter? == some c) with
    | none => .error (.fault (.unknownOption ['-', c]))
    | some option =>
      if option.takesValue then
        match rest with
        | [] => .ok (given, some option)
        | '=' :: value => (given.withOption option value).map (·, none)
        | value => (given.withOption option value).map (·, none)
      else
        match given.withOption option [] with
        | .error early => .error early
        | .ok given => readLetters given level rest

/-- Whether a word can be the value of the option in front of it. -/
def isValue (word : Text) : Bool := word == ['-'] || word.head? != some '-'

/-- Read the words of a level. `awaiting` is the option whose value comes next, and after two hyphens
alone every word is `literal`. In front of a command, the command ends the level; what is left of the
words is returned. -/
def read (level : ArgumentLevel) (given : Given) (awaiting : Option OptionName) (literal : Bool) :
    List Text → Except EarlyEnd (Given × List Text)
  | [] =>
    match awaiting with
    | some option => .error (.fault (.missingValue option))
    | none => .ok (given, [])
  | word :: rest =>
    match awaiting with
    | some option =>
      if isValue word then do read level (← given.withOption option word) none literal rest
      else .error (.fault (.missingValue option))
    | none =>
      if literal || isValue word then
        if level ≠ .program then do read level (← given.withTemplate level word) none literal rest
        else if literal then .error (.fault (.unexpectedArgument word))
        else .ok (given, word :: rest)
      else
        match word with
        | ['-', '-'] => read level given none true rest
        | '-' :: '-' :: name => do
          let (given, awaiting) ← given.readWord level name
          read level given awaiting literal rest
        | letters => do
          let (given, awaiting) ← given.readLetters level letters.tail
          read level given awaiting literal rest

/-- Whether an option was given. -/
def has (given : Given) (option : OptionName) : Bool := (given.options.lookup option).isSome

/-- The path that was given for an option. -/
def path? (given : Given) (option : OptionName) : Option Path :=
  (given.options.lookup option).map Path.mk

/-- The format that was given; it is text if none was. -/
def reportFormat (given : Given) : ReportFormat :=
  ((given.options.lookup .format).bind ReportFormat.ofName?).getD .text

/-- The templates as paths. -/
def inputs (given : Given) : List Path := given.templates.map Path.mk

end Given

namespace CommonOptions

/-- What was given in front of a command and behind it. -/
def ofGiven (front behind : Given) : CommonOptions :=
  { config := behind.path? .config <|> front.path? .config
    directory := behind.path? .path <|> front.path? .path
    verbose := behind.has .verbose || front.has .verbose
    plain := behind.has .noColor || front.has .noColor }

end CommonOptions

namespace Command

/-- The names of the commands. -/
def names : List (String × ArgumentLevel) :=
  [("generate", .generate), ("check", .check), ("list", .list)]

/-- The command that was given at a level. -/
def ofGiven (level : ArgumentLevel) (given : Given) : Except EarlyEnd Command :=
  match level, given.inputs with
  | _, [] => .error (.fault .missingTemplates)
  | .check, inputs => .ok (.check inputs (given.has .diff) given.reportFormat)
  | .list, input :: _ => .ok (.list input given.reportFormat)
  | _, inputs => .ok (.generate inputs (given.path? .out) (given.has .dryRun))

/-- What asking for help asks about: a command, or everything. -/
def readHelp (topics : List Text) : EarlyEnd :=
  let known := "help" :: names.map (·.1)
  match topics with
  | [] => .help
  | [topic] => if known.any (·.toList == topic) then .help else .fault (.unknownCommand topic)
  | _ :: topic :: _ => .fault (.unknownCommand topic)

/-- The options and the command, if there is one, that words ask for. -/
def read (words : List Text) : Except EarlyEnd (CommonOptions × Option Command) := do
  let (front, rest) ← Given.read .program .nothing none false words
  match rest with
  | [] => return (.ofGiven front .nothing, none)
  | name :: rest =>
    if name = "help".toList then throw (readHelp rest)
    match names.find? (·.1.toList == name) with
    | none => throw (.fault (.unknownCommand name))
    | some (_, level) =>
      let (behind, _) ← Given.read level .nothing none false rest
      return (.ofGiven front behind, some (← ofGiven level behind))

end Command

end Stencil
