import DocCoverage.Command.Failure
import DocCoverage.Command.Options
import DocCoverage.Coverage.Check
import DocCoverage.Git.Diff
import DocCoverage.Log.Filter

/-!
# Running the command

The command obtains a text, from standard input or from git, and reports the public functions in
it that are not documented. It exits with zero only if it has checked a text and found none.

`Options.input` obtains the text, `coverage` is the answer about it, and `run` puts both together
with what is logged on the way.
-/

namespace DocCoverage.Command

open Git (Effect Program)
open Log (Entry Filter Level Logged)

/-- What the command finds where it runs. -/
structure Environment where
  stdin : List UInt8
  git : Option Program
  /-- The log filter that the user has set. -/
  logSpec : Option String
deriving DecidableEq, Repr

/-- What a run of the command leaves behind. -/
structure Report where
  code : Nat
  stdout : String
  /-- The error output, by entries of the log and lines of the report of a failure. -/
  stderr : List String
  /-- The argument lists that git was started with. -/
  calls : List (List String)
deriving DecidableEq, Repr

/-- The level down to which is logged if the user has set no filter. -/
def Options.level (options : Options) : Level :=
  match options.verbosity with
  | 0 => .warn
  | 1 => .info
  | 2 => .debug
  | _ => .trace

/-- What staged changes are compared with. -/
def Options.base (options : Options) (git : Option Program) :
    Effect (Except Failure String) := do
  match options.against with
  | some revision => return .ok revision
  | none =>
    match ← Git.diffBase git with
    | .ok base => return .ok base
    | .error error => return .error (.base error)

/-- The text to be checked. -/
def Options.input (options : Options) (environment : Environment) :
    Effect (Except Failure String) := do
  if options.stdin then
    match Text.Utf8.decode environment.stdin with
    | .ok text => return .ok text
    | .error _ => return .error .input
  else
    match ← options.base environment.git with
    | .error failure => return .error failure
    | .ok base =>
      match ← Git.stagedDiff environment.git base with
      | .ok text => return .ok text
      | .error error => return .error (.difference base error)

/-- The coverage of a text. -/
def coverage (text : String) : Logged (Except TokenizeError Coverage) := do
  match ← Token.tokenizeLogged text with
  | .error error => return .error error
  | .ok tokens =>
    let coverage ← Coverage.checkLogged tokens
    Logged.report .info "docgate"
      (s!"{coverage.documented} documented public functions, " ++
        s!"{coverage.undocumented.length} undocumented")
    return .ok coverage

/-- The complaint about functions that are not documented, if there are any. -/
def complaint (coverage : Coverage) : String :=
  if coverage.isComplete then ""
  else
    "The following functions are undocumented: " ++ ", ".intercalate coverage.undocumented ++ "\n"

/-- The text as it is shown before the verdict, if it is to be shown. -/
def shown (options : Options) (text : String) : String :=
  if options.showInput then text ++ "\n" else ""

/-- Runs the command with the given options. -/
def run (options : Options) (environment : Environment) : Report :=
  let (filter, warnings) := match environment.logSpec with
    | some spec => (Filter.ofLevel options.level).refine spec
    | none => (Filter.ofLevel options.level, [])
  let logged (entries : List Entry) := warnings ++ (entries.filter filter.admits).map Entry.render
  let input := options.input environment
  match input.result with
  | .error failure => ⟨1, "", logged input.entries ++ failure.render, input.calls⟩
  | .ok text =>
    let found := coverage text
    let log := logged (input.entries ++ found.entries)
    match found.value with
    | .error error =>
      ⟨1, shown options text, log ++ (Failure.tokenize error).render, input.calls⟩
    | .ok coverage =>
      ⟨if coverage.isComplete then 0 else 1, shown options text ++ complaint coverage, log,
        input.calls⟩

/-- The name and version of the command. -/
def versionText : String := "docgate 0.1.0\n"

/-- What the command says when it is asked for help, or when the arguments are not understood: the
usage line. The list of options and the causes of a usage error, which the argument parser writes
around it, are left out. -/
def helpText : String :=
  "Usage: docgate [--stdin | --against <REV>] [--show-input] [--verbose]...\n"

section Execute

variable {ε : Type}

/-- Runs the command with arguments that `parse` makes a request of. -/
def executeWith (parse : List String → Except ε Request) (arguments : List String)
    (environment : Environment) : Report :=
  match parse arguments with
  | .ok (.check options) => run options environment
  | .ok .version => ⟨0, versionText, [], []⟩
  | .ok .help => ⟨0, helpText, [], []⟩
  | .error _ => ⟨2, "", [helpText], []⟩

end Execute

/-- Runs the command with the given arguments. -/
def execute (arguments : List String) (environment : Environment) : Report :=
  executeWith Request.ofArguments arguments environment

end DocCoverage.Command
