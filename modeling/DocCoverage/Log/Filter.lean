import DocCoverage.Log.Entry
import DocCoverage.Pattern.Expression

/-!
# Log filters

A filter decides which entries are printed. It is a list of directives, each with a threshold for
all targets that begin with a given name, and possibly a pattern that has to be found in every
printed message. Of several directives for a target, the one with the longest name decides.

A filter is written as directives between commas and, behind a slash, the pattern. A directive is
a level, a name, or a name, an equals sign and a level. Directives that cannot be read, and a
pattern that cannot be read, are passed over with a warning.

This follows the documented behaviour of env_logger 0.11 for `RUST_LOG`: names are compared with the
beginning of a target and not with its segments, levels are written in any case, a name alone lets
everything through, a later directive takes the place of one with the same name, and the pattern is
a regular expression that is looked for anywhere in the message. A printed entry begins with the
time, which is left out.
-/

namespace DocCoverage.Log

/-- The least severe level that is still let through; `none` lets nothing through. -/
abbrev Threshold := Option Level

namespace Threshold

/-- Whether entries of the level are let through. -/
def admits (threshold : Threshold) (level : Level) : Bool :=
  match threshold with
  | some least => level.rank ≤ least.rank
  | none => false

/-- The names of the thresholds, in lower case. -/
def names : List (String × Threshold) :=
  [("off", none), ("error", some .error), ("warn", some .warn), ("info", some .info),
    ("debug", some .debug), ("trace", some .trace)]

/-- The threshold of the given name, in any mixture of upper and lower case. -/
def ofName? (name : String) : Option Threshold := names.lookup name.toLower

end Threshold

/-- A threshold for the targets that begin with a name, or for all targets. -/
structure Directive where
  name : Option String
  threshold : Threshold
deriving DecidableEq, Repr

namespace Directive

/-- Whether the directive is about the target. -/
def covers (directive : Directive) (target : String) : Bool :=
  match directive.name with
  | some name => name.toList.isPrefixOf target.toList
  | none => true

/-- How closely the directive describes its targets: by the length of the name, and least of all
without a name. -/
def weight (directive : Directive) : Nat :=
  match directive.name with
  | some name => name.utf8ByteSize + 1
  | none => 0

/-- Reads a directive. The error is the part that could not be read. -/
def parse (text : String) : Except String Directive :=
  match text.toList.splitOn '=' with
  | [first] =>
    let name := String.ofList first
    match Threshold.ofName? name with
    | some threshold => .ok ⟨none, threshold⟩
    | none => .ok ⟨some name, some .trace⟩
  | [first, second] =>
    let name := String.ofList first
    let level := String.ofList (Text.trim second)
    if level = "" then .ok ⟨some name, some .trace⟩
    else match Threshold.ofName? level with
      | some threshold => .ok ⟨some name, threshold⟩
      | none => .error level
  | _ => .error text

end Directive

/-- Which entries are printed. -/
structure Filter where
  directives : List Directive
  /-- A pattern that is found in every printed message. -/
  required : Option Pattern
deriving DecidableEq, Repr

namespace Filter

/-- The filter with one threshold for all targets. -/
def ofLevel (level : Level) : Filter := ⟨[⟨none, some level⟩], none⟩

/-- Adds a directive. It takes the place of one with the same name. -/
def insert (filter : Filter) (directive : Directive) : Filter :=
  let others := filter.directives.filter fun other => other.name != directive.name
  { filter with directives := directive :: others }

/-- The directive that decides about a target. -/
def directive? (filter : Filter) (target : String) : Option Directive :=
  (filter.directives.filter fun directive => directive.covers target).foldl
    (fun best directive =>
      match best with
      | some chosen => if chosen.weight < directive.weight then some directive else some chosen
      | none => some directive) none

/-- Whether an entry is printed. -/
def admits (filter : Filter) (entry : Entry) : Bool :=
  (match filter.directive? entry.target with
    | some directive => directive.threshold.admits entry.level
    | none => false) &&
  filter.required.all fun pattern => pattern.isFoundIn entry.message

/-- The warning about something that could not be read. -/
def warning (complaint : String) : String := s!"warning: {complaint}, ignoring it"

/-- The complaint about a part of a filter that is neither directive nor pattern. -/
def invalidPart (part : String) : String := "invalid logging spec '" ++ part ++ "'"

/-- The directives of the text before the slash, and the warnings. -/
def readDirectives (text : List Char) : List Directive × List String :=
  let parts := ((text.splitOn ',').map Text.trim).filter fun part => !part.isEmpty
  let read := parts.map fun part => Directive.parse (String.ofList part)
  (read.filterMap Except.toOption,
    read.filterMap fun
      | .ok _ => none
      | .error part => some (warning (invalidPart part)))

/-- The pattern behind the slash, and the warnings. -/
def readPattern (text : String) : Option Pattern × List String :=
  match Pattern.read text with
  | .ok pattern => (some pattern, [])
  | .error refusal => (none, [warning ("invalid regex filter - " ++ refusal.render text)])

/-- Changes a filter as the text says. The warnings name what could not be read. -/
def refine (filter : Filter) (text : String) : Filter × List String :=
  match text.toList.splitOn '/' with
  | [directives] =>
    let (read, warnings) := readDirectives directives
    (read.foldl insert filter, warnings)
  | [directives, pattern] =>
    let (read, warnings) := readDirectives directives
    let (required, complaints) := readPattern (String.ofList pattern)
    ({ read.foldl insert filter with required := required }, warnings ++ complaints)
  | _ => (filter, [warning (invalidPart text ++ " (too many '/'s)")])

end Filter

/-- An entry as it is printed: the level, filled up to the width of the longest one, the target
and the message, of which all lines but the first are indented. -/
def Entry.render (entry : Entry) : String :=
  let level := entry.level.name
  "[" ++ level.pushn ' ' (5 - level.length) ++ " " ++ entry.target ++ "] " ++
    entry.message.replace "\n" "\n    "

end DocCoverage.Log
