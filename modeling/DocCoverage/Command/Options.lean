/-!
# Options of the command

The arguments of the command are read from left to right. The first one that is not understood
ends the reading with a usage error, and asking for help or the version ends it as well, whatever
comes behind. That two options exclude each other is found at the end.

This follows the documented behaviour of clap 4 for the options that the command declares:

* A flag (`--stdin`, `--show-input`) may come once and takes no value, so `--stdin=x` is refused;
  `--verbose` may come any number of times.
* The value of `--against` stands behind an equals sign, where it may be any text, or in the next
  argument, which must not look like an option; a lone dash does not. The option may come once.
* Short options (`-v`, `-h`, `-V`) may be joined behind one dash.
* Behind `--` there are only positional arguments, of which the command has none.
* Names are written in full.
-/

namespace DocCoverage.Command

/-- How the command is to run. -/
structure Options where
  /-- Take the text from standard input instead of the staged changes. -/
  stdin : Bool
  /-- What staged changes are compared with. -/
  against : Option String
  /-- Print the text before the result. -/
  showInput : Bool
  /-- How much more than usual is logged. -/
  verbosity : Nat
deriving DecidableEq, Repr

/-- No option given. -/
def Options.default : Options := ⟨false, none, false, 0⟩

/-- What the arguments ask for. -/
inductive Request where
  | check (options : Options)
  | help
  | version
deriving DecidableEq, Repr

/-- Why arguments are not understood. -/
inductive UsageError where
  | unknown (argument : String)
  | repeated (option : String)
  | missingValue (option : String)
  /-- An option that takes none has been given a value. -/
  | unexpectedValue (option : String)
  | conflict (first second : String)
deriving DecidableEq, Repr

/-- An argument, or a short option in it, either adds to the options or ends the reading. -/
inductive Reading where
  | go (options : Options)
  | stop (request : Request)
deriving DecidableEq, Repr

namespace Options

/-- Reads the letters of short options. -/
def readShort (options : Options) : List Char → Except UsageError Reading
  | [] => .ok (.go options)
  | 'v' :: letters => readShort { options with verbosity := options.verbosity + 1 } letters
  | 'V' :: _ => .ok (.stop .version)
  | 'h' :: _ => .ok (.stop .help)
  | letter :: _ => .error (.unknown ("-" ++ String.singleton letter))

/-- Reads a long option that takes no value. -/
def readFlag (options : Options) : String → Except UsageError Reading
  | "stdin" =>
    if options.stdin then .error (.repeated "--stdin")
    else .ok (.go { options with stdin := true })
  | "show-input" =>
    if options.showInput then .error (.repeated "--show-input")
    else .ok (.go { options with showInput := true })
  | "verbose" => .ok (.go { options with verbosity := options.verbosity + 1 })
  | "version" => .ok (.stop .version)
  | "help" => .ok (.stop .help)
  | name => .error (.unknown ("--" ++ name))

/-- Takes the revision to compare with. -/
def takeAgainst (options : Options) (revision : String) : Except UsageError Options :=
  match options.against with
  | some _ => .error (.repeated "--against")
  | none => .ok { options with against := some revision }

/-- The flags that `readFlag` knows. -/
def flags : List String := ["stdin", "show-input", "verbose", "version", "help"]

/-- What the options ask for, unless they exclude each other. -/
def finish (options : Options) : Except UsageError Request :=
  if options.stdin && options.against.isSome then .error (.conflict "--stdin" "--against")
  else .ok (.check options)

/-- Whether an argument can be the value of the option before it. Only a lone dash may begin with
a dash. -/
def isValue (argument : String) : Bool :=
  argument == "-" || !"-".toList.isPrefixOf argument.toList

/-- Reads the arguments from left to right. -/
def read (options : Options) : (arguments : List String) → Except UsageError Request
  | [] => options.finish
  | argument :: arguments =>
    match argument.toList with
    | ['-', '-'] =>
      match arguments with
      | [] => options.finish
      | surplus :: _ => .error (.unknown surplus)
    | '-' :: '-' :: long =>
      match long.span (· != '=') with
      | (name, []) =>
        let name := String.ofList name
        if name = "against" then
          match arguments with
          | [] => .error (.missingValue "--against")
          | revision :: arguments =>
            if isValue revision then
              match options.takeAgainst revision with
              | .ok options => read options arguments
              | .error error => .error error
            else .error (.missingValue "--against")
        else
          match options.readFlag name with
          | .ok (.go options) => read options arguments
          | .ok (.stop request) => .ok request
          | .error error => .error error
      | (name, _ :: value) =>
        let name := String.ofList name
        if name = "against" then
          match options.takeAgainst (String.ofList value) with
          | .ok options => read options arguments
          | .error error => .error error
        else if flags.contains name then .error (.unexpectedValue ("--" ++ name))
        else .error (.unknown ("--" ++ name))
    | '-' :: letter :: letters =>
      match options.readShort (letter :: letters) with
      | .ok (.go options) => read options arguments
      | .ok (.stop request) => .ok request
      | .error error => .error error
    | _ => .error (.unknown argument)

end Options

/-- What a list of arguments asks for. -/
def Request.ofArguments (arguments : List String) : Except UsageError Request :=
  Options.default.read arguments

end DocCoverage.Command
