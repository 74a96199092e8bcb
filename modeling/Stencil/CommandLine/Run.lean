import Stencil.CommandLine.Check
import Stencil.CommandLine.List
import Stencil.Config.Discovery

/-!
# Running a command line

The arguments decide what is done, the environment how it is shown. A configuration that cannot be
used ends a command before any template is looked at.
-/

namespace Stencil

/-- What a run is given besides the files. -/
structure Environment where
  arguments : List Text
  /-- Whether the environment refuses colours. -/
  plain : Bool
  /-- The rules for the log, if the environment has any. -/
  logRules : Option Text
  /-- The path of the working directory, as it is shown. -/
  workingDirectory : Text
  deriving DecidableEq, Repr

namespace CommandLine

/-- What the program answers when it is asked for its version. -/
def versionText : String := "tmplgen_cli 0.1.0"

/-- What the program answers when it is asked for help. -/
def helpText : String := String.intercalate "\n" [
  "Generate repetitive code from comment-tagged template blocks.",
  "",
  "Usage: tmplgen [OPTIONS] [COMMAND]",
  "",
  "Commands:",
  "  generate  Generate output files from templates",
  "  check     Check that generated files are up to date",
  "  list      List the segments of a template",
  "  help      Print this message",
  "",
  "Options:",
  "  -c, --config <CONFIG>  Path to a config file. Overrides config discovery",
  "  -p, --path <PATH>      Directory searched for `tmplgen.toml`",
  "  -v, --verbose          Enable verbose output",
  "      --no-color         Disable colored output",
  "  -h, --help             Print help",
  "  -V, --version          Print version",
  "",
  "Options of generate: -o, --out <OUT>; --dry-run",
  "Options of check: --diff; --format <text|json>",
  "Options of list: --format <text|json>"]

/-- The answer to arguments that ask for no command. -/
def earlyAnswer : EarlyEnd → Transcript
  | .help => ⟨[.result helpText], 0⟩
  | .version => ⟨[.result versionText], 0⟩
  | .fault fault =>
    ⟨[.message ("error: " ++ fault.message), .message "",
      .message "For more information, try `--help`."], 2⟩

/-- How a run is shown. -/
def display (environment : Environment) (options : CommonOptions) : Display :=
  { colored := !options.plain && !environment.plain
    filter := if options.verbose then .fromLevel .debug else .ofText environment.logRules }

variable {m : Type → Type} [Monad m] [FileAccess m]

/-- The configuration of a run: that of the file that the options name, or else of the directory that
they name, or else of the working directory. A directory without a configuration has the default one. -/
def loadConfig (environment : Environment) (options : CommonOptions) :
    m (Noted (Except Error Config)) := do
  match options.config with
  | some path => return ⟨[.loadingConfig path.text], ← Config.loadFile path⟩
  | none =>
    let root := (options.directory.map (·.text)).getD environment.workingDirectory
    match ← Config.load (options.directory.getD ⟨[]⟩) with
    | .error fault => return .silent (.error fault)
    | .ok found => return ⟨[.resolvedConfig root found.isSome], .ok (found.getD {})⟩

/-- The output of a template: the one that was asked for, or the one that its name decides. -/
def outputFor (config : Config) (output : Option Path) (input : Path) : Path :=
  output.getD (config.output.outputPath input)

/-- Run a command with a configuration. -/
def runConfigured (display : Display) (config : Config) : Command → m Transcript
  | .generate inputs output dryRun => do
    let batch := if dryRun then previewEach else generateEach
    return display.generateReport dryRun (← batch config (outputFor config output) inputs)
  | .check inputs diff format => do
    return display.checkReport diff format (← checkEach config inputs)
  | .list input format => listFile display config input format

/-- Whether a command names one output for several templates. -/
def sharesOutput : Command → Bool
  | .generate inputs output _ => output.isSome && inputs.length > 1
  | _ => false

/-- Run a command. -/
def runCommand (environment : Environment) (options : CommonOptions) (command : Command) :
    m Transcript := do
  let display := display environment options
  if sharesOutput command then
    return ⟨[display.errorLine "`--out` can only be used with a single template"], 2⟩
  match ← loadConfig environment options with
  | ⟨entries, .error fault⟩ => return ⟨display.log entries ++ [display.diagnostic fault], 2⟩
  | ⟨entries, .ok config⟩ =>
    return (← runConfigured display config command).after (display.log entries)

/-- Run what the arguments ask for. -/
def run (environment : Environment) : m Transcript :=
  match Command.read environment.arguments with
  | .error early => return earlyAnswer early
  | .ok (_, none) =>
    return ⟨[.message "No subcommand specified. Run `tmplgen --help` for usage."], 1⟩
  | .ok (options, some command) => runCommand environment options command

end CommandLine

end Stencil
