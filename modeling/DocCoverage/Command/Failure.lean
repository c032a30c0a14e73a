import DocCoverage.Git.Program
import DocCoverage.Token.Tokenize

/-!
# Failures of the command

Why the command cannot give a verdict. A failure is printed with the chain of causes behind it,
one to a line; causes are numbered if there are several.
-/

namespace DocCoverage.Command

open Git (GitError)

/-- Why there is no verdict. -/
inductive Failure where
  /-- Standard input is no text. -/
  | input
  /-- It cannot be found out what to compare with. -/
  | base (error : GitError)
  /-- The staged changes cannot be compared with the revision. -/
  | difference (revision : String) (error : GitError)
  | tokenize (error : TokenizeError)
deriving DecidableEq

namespace Failure

/-- The failure in words. -/
def message : Failure → String
  | input => "reading standard input"
  | base error => error.message
  | difference revision _ => s!"diffing staged changes against {revision}"
  | tokenize error => error.message

/-- What the failure goes back to, in words, from the nearest cause to the last. -/
def causes : Failure → List String
  | input => ["stream did not contain valid UTF-8"]
  | base error => error.causes
  | difference _ error => error.message :: error.causes
  | tokenize _ => []

/-- A text with `first` in front of its first line and `later` in front of all others. -/
def withMargin (first later text : String) : String :=
  first ++ text.replace "\n" ("\n" ++ later)

/-- The margin of a numbered cause. -/
def numberMargin (number : Nat) : String :=
  let digits := toString number
  "".pushn ' ' (5 - digits.length) ++ digits ++ ": "

/-- The causes as they are printed. -/
def renderCauses : List String → List String
  | [cause] => [withMargin "    " "    " cause]
  | causes => causes.zipIdx.map fun (cause, number) =>
    withMargin (numberMargin number) "       " cause

/-- The failure as it is printed. -/
def render (failure : Failure) : List String :=
  let headline := "Error: " ++ failure.message
  if failure.causes.isEmpty then [headline]
  else [headline, "", "Caused by:"] ++ renderCauses failure.causes

end Failure

end DocCoverage.Command
