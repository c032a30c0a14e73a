import DocCoverage.Parser.Attempt

/-!
# Log entries

What the library reports about its own work. Functions that report return a `Logged` value: the
value and the entries made on the way, in order. Which entries are printed is decided elsewhere.
-/

namespace DocCoverage.Log

/-- The severity of an entry, the most severe first. -/
inductive Level where
  | error
  | warn
  | info
  | debug
  | trace
deriving DecidableEq, Repr

namespace Level

/-- The place of the level, the most severe being the first. -/
def rank : Level → Nat
  | error => 1
  | warn => 2
  | info => 3
  | debug => 4
  | trace => 5

/-- The level as it is printed. -/
def name : Level → String
  | error => "ERROR"
  | warn => "WARN"
  | info => "INFO"
  | debug => "DEBUG"
  | trace => "TRACE"

end Level

/-- One report, with the part of the program that makes it as its target. -/
structure Entry where
  level : Level
  target : String
  message : String
deriving DecidableEq, Repr

/-- The warning about a repetition that was stopped. -/
def Entry.ofStall (stall : Stall) : Entry := ⟨.warn, "docgate::many", stall.message⟩

/-- A value and the entries made on the way to it. -/
structure Logged (α : Type) where
  value : α
  entries : List Entry
deriving DecidableEq, Repr

namespace Logged

variable {α β : Type}

/-- A value without any entry. -/
protected def pure (value : α) : Logged α := ⟨value, []⟩

/-- Goes on from the value; later entries come behind earlier ones. -/
protected def bind (first : Logged α) (next : α → Logged β) : Logged β :=
  let second := next first.value
  ⟨second.value, first.entries ++ second.entries⟩

instance : Monad Logged where
  pure := Logged.pure
  bind := Logged.bind

/-- Makes one entry. -/
def report (level : Level) (target message : String) : Logged Unit :=
  ⟨(), [⟨level, target, message⟩]⟩

/-- The outcome of an attempt, with its stalls as warnings. -/
def ofAttempt {ε α : Type} (attempt : Attempt ε α) : Logged (Outcome ε α) :=
  ⟨attempt.outcome, attempt.stalls.map Entry.ofStall⟩

@[simp] theorem value_pure (value : α) : (pure value : Logged α).value = value := rfl

@[simp] theorem entries_pure (value : α) : (pure value : Logged α).entries = [] := rfl

@[simp] theorem value_bind (first : Logged α) (next : α → Logged β) :
    (first >>= next).value = (next first.value).value := rfl

@[simp] theorem entries_bind (first : Logged α) (next : α → Logged β) :
    (first >>= next).entries = first.entries ++ (next first.value).entries := rfl

end Logged

end DocCoverage.Log
