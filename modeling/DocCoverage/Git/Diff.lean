import DocCoverage.Git.Program

/-!
# Staged changes

The staged changes of a repository, compared with a revision. A repository without commits is
compared with the empty tree.
-/

namespace DocCoverage.Git

/-- The object name of the tree without entries. -/
def emptyTree : String := "4b825dc642cb6eb9a060e54bf8d69288fbee4904"

/-- The arguments that ask whether there is a commit. -/
def revisionArguments : List String := ["rev-parse", "--verify", "HEAD"]

/-- The arguments that ask for the staged changes. -/
def diffArguments (base : String) : List String := ["diff", "--cached", base, "--"]

/-- Whether the repository has a commit. -/
def headExists (git : Option Program) : Effect (Except GitError Bool) := do
  match ← Effect.start git revisionArguments with
  | .ok program =>
    Effect.report .trace
      ("git " ++ " ".intercalate revisionArguments ++ ": " ++ program.revision.describe)
    return .ok program.revision.isSuccess
  | .error error => return .error error

/-- What staged changes are compared with if nothing else is asked for. -/
def diffBase (git : Option Program) : Effect (Except GitError String) := do
  match ← headExists git with
  | .ok found => return .ok (if found then "HEAD" else emptyTree)
  | .error error => return .error error

/-- The text that a program prints when it is asked for a difference. -/
def Program.diff (program : Program) (command : String) : Except GitError String :=
  if program.difference.isSuccess then
    match Text.Utf8.decode program.printed with
    | .ok text => .ok text
    | .error defect => .error (.encoding defect)
  else .error (.exited command program.difference.code?)

/-- The staged changes compared with a base. -/
def stagedDiff (git : Option Program) (base : String) : Effect (Except GitError String) := do
  let arguments := diffArguments base
  let command := " ".intercalate arguments
  Effect.report .debug ("running git " ++ command)
  match ← Effect.start git arguments with
  | .ok program => return program.diff command
  | .error error => return .error error

end DocCoverage.Git
