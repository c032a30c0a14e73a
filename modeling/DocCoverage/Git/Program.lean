import DocCoverage.Log.Entry
import DocCoverage.Text.Utf8

/-!
# The git program

Staged changes come from a `git` program, which is described by what it does: how the two commands
that are used exit, and what the second one prints. A computer may have no such program. An
`Effect` is what running it leaves behind.
-/

namespace DocCoverage.Git

open Log (Entry Level)

/-- How a program ends: by its own exit code, or killed by a signal. -/
inductive Status where
  | exited (code : Int)
  | killed
deriving DecidableEq, Repr

namespace Status

/-- Whether the program reports success. -/
def isSuccess : Status → Bool
  | exited code => code == 0
  | killed => false

/-- The exit code, if there is one. -/
def code? : Status → Option Int
  | exited code => some code
  | killed => none

/-- The status in words. -/
def describe : Status → String
  | exited code => s!"exit status: {code}"
  | killed => "signal: 9 (SIGKILL)"

end Status

/-- What a `git` program does. -/
structure Program where
  /-- How it ends when it is asked for a revision. -/
  revision : Status
  /-- How it ends when it is asked for a difference. -/
  difference : Status
  /-- What it prints when it is asked for a difference. -/
  printed : List UInt8
deriving DecidableEq, Repr

/-- Why git gives no text. -/
inductive GitError where
  /-- It cannot be started. -/
  | launch (reason : String)
  /-- It does not report success. -/
  | exited (command : String) (code : Option Int)
  /-- What it prints is no text. -/
  | encoding (defect : Text.Utf8.Defect)
deriving DecidableEq, Repr

namespace GitError

/-- The error in words. -/
def message : GitError → String
  | launch reason => s!"failed to run git: {reason}"
  | exited command (some code) => s!"git {command} exited with status {code}"
  | exited command none => s!"git {command} exited with no status (terminated by signal)"
  | encoding _ => "git output is not valid UTF-8"

/-- What the error goes back to, in words. -/
def causes : GitError → List String
  | launch reason => [reason]
  | exited .. => []
  | encoding defect => [defect.message]

/-- What the system says about a program that is not there. -/
def missing : GitError := launch "No such file or directory (os error 2)"

end GitError

/-- The result of running programs, the argument lists that git was started with, and the log. -/
structure Effect (α : Type) where
  result : α
  calls : List (List String)
  entries : List Entry
deriving DecidableEq, Repr

namespace Effect

variable {α β : Type}

/-- A result without any effect. -/
protected def pure (result : α) : Effect α := ⟨result, [], []⟩

/-- Goes on from the result; later calls and entries come behind earlier ones. -/
protected def bind (first : Effect α) (next : α → Effect β) : Effect β :=
  let second := next first.result
  ⟨second.result, first.calls ++ second.calls, first.entries ++ second.entries⟩

instance : Monad Effect where
  pure := Effect.pure
  bind := Effect.bind

/-- Makes one entry. -/
def report (level : Level) (message : String) : Effect Unit :=
  ⟨(), [], [⟨level, "docgate::git", message⟩]⟩

/-- Starts git with the given arguments, if there is one. -/
def start (git : Option Program) (arguments : List String) : Effect (Except GitError Program) :=
  match git with
  | some program => ⟨.ok program, [arguments], []⟩
  | none => ⟨.error .missing, [], []⟩

@[simp] theorem result_pure (result : α) : (pure result : Effect α).result = result := rfl

@[simp] theorem result_bind (first : Effect α) (next : α → Effect β) :
    (first >>= next).result = (next first.result).result := rfl

@[simp] theorem calls_pure (result : α) : (pure result : Effect α).calls = [] := rfl

@[simp] theorem calls_bind (first : Effect α) (next : α → Effect β) :
    (first >>= next).calls = first.calls ++ (next first.result).calls := rfl

end Effect

end DocCoverage.Git
