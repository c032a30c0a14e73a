import DocCoverage.Command.Run

/-!
# How the text is obtained

Which bytes are to be the text, and what git is started with to get them, said on the arguments of
the command and on what it finds where it runs.
-/

namespace DocCoverage

/-- What the program prints when it is asked for a difference, if it reports success. -/
def Git.Program.output? (program : Git.Program) : Option (List UInt8) :=
  if program.difference = .exited 0 then some program.printed else none

namespace Command

/-- The arguments name a revision to compare the staged changes with. -/
def NamesRevision (arguments : List String) (revision : String) : Prop :=
  "--against=" ++ revision ∈ arguments ∨ ["--against", revision] <:+: arguments

/-- The options hold what the arguments spell out, wherever it stands among them. The verdict takes
nothing else from the reading of the arguments. -/
structure Options.Means (options : Options) (arguments : List String) : Prop where
  stdin_iff : options.stdin = true ↔ "--stdin" ∈ arguments
  showInput_iff : options.showInput = true ↔ "--show-input" ∈ arguments
  against_iff : ∀ revision, options.against = some revision ↔ NamesRevision arguments revision

/-- The argument lists that git is started with, one after the other, and the bytes that are to be
the text, if they can be had. -/
inductive Obtains (arguments : List String) (environment : Environment) :
    (calls : List (List String)) → (bytes : Option (List UInt8)) → Prop where
  | stdin (asked : "--stdin" ∈ arguments) :
      Obtains arguments environment [] (some environment.stdin)
  | missing (unasked : "--stdin" ∉ arguments) (absent : environment.git = none) :
      Obtains arguments environment [] none
  | against {git : Git.Program} {revision : String} (unasked : "--stdin" ∉ arguments)
      (present : environment.git = some git) (named : NamesRevision arguments revision) :
      Obtains arguments environment [["diff", "--cached", revision, "--"]] git.output?
  | head {git : Git.Program} (unasked : "--stdin" ∉ arguments)
      (present : environment.git = some git)
      (unnamed : ∀ revision, ¬ NamesRevision arguments revision)
      (found : git.revision = .exited 0) :
      Obtains arguments environment
        [["rev-parse", "--verify", "HEAD"], ["diff", "--cached", "HEAD", "--"]] git.output?
  | emptyTree {git : Git.Program} (unasked : "--stdin" ∉ arguments)
      (present : environment.git = some git)
      (unnamed : ∀ revision, ¬ NamesRevision arguments revision)
      (unfound : git.revision ≠ .exited 0) :
      Obtains arguments environment
        [["rev-parse", "--verify", "HEAD"], ["diff", "--cached", Git.emptyTree, "--"]] git.output?

end Command

end DocCoverage
